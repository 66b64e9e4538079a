import Mathlib.Algebra.GroupWithZero.Nat
import Mathlib.Data.List.Infix
import Mathlib.Data.List.Sort
import Mathlib.Data.String.Basic
import Transform.Lib.LineText
import Transform.Accounts.PhoneFormat
import Transform.Documents.TextDecoding
import Transform.Files.Naming

/-!
# Documents.Extraction — the text of a document

`DocumentTextExtractor.extract` reads plain text, PDF and the ZIP archives of Word, Excel and PowerPoint, within a limit on
the bytes; of the text it keeps as many characters as the budget has, with line ends, blanks and blank lines collapsed.  What
opens a PDF or an archive and what parses XML are parameters.
-/

namespace Transform.Documents

open Lib Conversions Accounts Files

/-! ## What the libraries give -/

section Libraries

/-- What is raised while a document is read, with its class; `value` is a `KeyError` or a `ValueError`. -/
inductive Raised
  | unsupportedFormat
  | value (kind : String)
  | other (kind : String)
  deriving DecidableEq, Repr

/-- An `ElementTree.Element`; the tag of a comment is no text. -/
inductive Element
  | node (tag : Option String) (attributes : List (String × String)) (text : Option String) (children : List Element)

/-- A member of an archive, with the size that it declares. -/
structure ZipEntry where
  name : String
  fileSize : ℕ
  content : Except Raised Bytes

structure DocumentLibraries where
  native : ByteOrder
  /-- The text of each page of a PDF, or what reading it raises. -/
  pdfPages : Bytes → Except Raised (List (Except Raised (List Char)))
  zipFile : Bytes → Except Raised (List ZipEntry)
  fromXml : Bytes → Except Raised Element

namespace Element

def tag : Element → Option String
  | node tag _ _ _ => tag

def text : Element → Option String
  | node _ _ text _ => text

def children : Element → List Element
  | node _ _ _ children => children

/-- `element.get(key)`. -/
def get (key : String) : Element → Option String
  | node _ attributes _ _ => attributes.lookup key

mutual

/-- `element.iter()`: the element, then what is below it, in the order of the text. -/
def iter : Element → List Element
  | node tag attributes text children => node tag attributes text children :: iterAll children

def iterAll : List Element → List Element
  | [] => []
  | element :: rest => element.iter ++ iterAll rest

end

/-- `_local_name`. -/
def localName (element : Element) : String :=
  match element.tag with
  | none => ""
  | some tag => String.ofList (tag.toList.reverse.takeWhile (· ≠ '}')).reverse

def named (name : String) (element : Element) : List Element := element.iter.filter fun e => e.localName = name

/-- `child.text or ""` of all `<t>`. -/
def runs (element : Element) : String := String.join ((element.named "t").map fun child => child.text.getD "")

end Element

/-- `int(text)`: a sign, and digits of any script with single underscores between them. -/
def intOf (text : String) : Option ℤ :=
  let stripped := trim isStripped text.toList
  let (sign, digits) : ℤ × List Char := match stripped with
    | '-' :: digits => (-1, digits)
    | '+' :: digits => (1, digits)
    | digits => (1, digits)
  let groups := digits.splitOn '_'
  if groups.all (fun group => group ≠ [] && group.all isDecimalDigit) && groups.flatten.length ≤ 4300 then
    some (sign * groups.flatten.foldl (fun (n : ℤ) c => n * 10 + digitValue c) 0)
  else none
where
  /-- The value of a decimal digit. -/
  digitValue (c : Char) : ℤ :=
    ((decimalZeros.find? fun first => first ≤ c.toNat && c.toNat < first + 10).map fun first => (c.toNat - first : ℤ)).getD 0

end Libraries

/-! ## The extractor -/

section Extractor

def textExtensions : List String :=
  ["txt", "md", "markdown", "csv", "tsv", "json", "xml", "html", "htm", "yaml", "yml", "log", "srt", "vtt", "ini", "cfg",
    "py", "js", "ts", "sql"]

def supportedHint : String := "readable formats are plain text, PDF, .docx, .xlsx and .pptx"

def maxZipExpansionRatio : ℕ := 16

def maxMemberBytes : ℕ := 160 * 1024 * 1024

structure ExtractedDocument where
  text : String
  truncated : Bool
  supported : Bool
  note : String := ""
  deriving DecidableEq, Repr

structure DocumentTextExtractor where
  maxDocumentBytes : ℕ
  maxInputChars : ℕ

variable (lib : DocumentLibraries) (self : DocumentTextExtractor)

def DocumentTextExtractor.memberCap : ℕ := min (max 1 self.maxDocumentBytes * maxZipExpansionRatio) maxMemberBytes

/-- `b"<!doctype"`. -/
def doctype : Bytes := utf8 "<!doctype"

/-- `bytes.lower`. -/
def lowerByte (b : UInt8) : UInt8 := if 0x41 ≤ b ∧ b ≤ 0x5A then b + 0x20 else b

/-- `b"<!doctype" in data[:4096].lower()`. -/
def hasDtd (data : Bytes) : Bool := decide (doctype <:+: (data.take 4096).map lowerByte)

/-- `_safe_parse`. -/
def safeParse (data : Bytes) : Except Raised Element :=
  if hasDtd data then .error (.value "ValueError") else lib.fromXml data

/-- `"\n".join(lines)`. -/
def joined (lines : List (List Char)) : List Char := ['\n'].intercalate lines

/-- `_xml_text` of what has been parsed, for runs `<t>` and breaks `<p>`. -/
def paragraphs (root : Element) : List Char :=
  root.iter.flatMap fun element =>
    if element.localName = "p" then ['\n']
    else if element.localName = "t" then (element.text.getD "").toList
    else []

/-- `_xml_text`. -/
def xmlText (data : Bytes) : Except Raised (List Char) := (safeParse lib data).map paragraphs

/-- `archive.getinfo(name)`: the last member of a name. -/
def getInfo (archive : List ZipEntry) (name : String) : Option ZipEntry :=
  archive.reverse.find? fun info => info.name = name

/-- `_read_member`. -/
def readMember (archive : List ZipEntry) (name : String) (cap : ℤ) : Except Raised Bytes :=
  match getInfo archive name with
  | none => .error (.value "ValueError")
  | some info => if cap < info.fileSize then .error (.value "ValueError") else info.content

/-- `_collapse_whitespace`. -/
def collapseWhitespace (text : List Char) : List Char := collapse isStripped text

/-- The pages of `_extract_pdf`, when `total` characters have been read. -/
def readPages (budget : ℕ) : (total : ℕ) → List (Except Raised (List Char)) → Except Raised (List (List Char))
  | _, [] => .ok []
  | total, page :: pages =>
    page.bind fun text =>
      if budget < total + text.length then .ok [text]
      else (readPages budget (total + text.length) pages).map (text :: ·)

def extractPdf (data : Bytes) : Except Raised (List Char) :=
  (lib.pdfPages data).bind fun document => (readPages self.maxInputChars 0 document).map joined

def extractDocx (data : Bytes) : Except Raised (List Char) :=
  (lib.zipFile data).bind fun archive =>
    (readMember archive "word/document.xml" self.memberCap).bind fun xml => xmlText lib xml

/-- `name.startswith(start) and name.endswith(".xml")`. -/
def isPart (start name : String) : Bool := start.toList.isPrefixOf name.toList && ".xml".toList.isSuffixOf name.toList

def sortedNames (archive : List ZipEntry) (start : String) : List String :=
  ((archive.map ZipEntry.name).filter fun name => isPart start name).insertionSort (· ≤ ·)

/-- The loop over the parts of a deck or a workbook, when `total` bytes have been read. -/
def readParts {α : Type} (archive : List ZipEntry) (read : Bytes → Except Raised α) (cap : ℤ) :
    (total : ℤ) → List String → Except Raised (List α)
  | _, [] => .ok []
  | total, name :: names =>
    (readMember archive name (cap - total)).bind fun member =>
      (read member).bind fun value => (readParts archive read cap (total + member.length) names).map (value :: ·)

def extractPptx (data : Bytes) : Except Raised (List Char) :=
  (lib.zipFile data).bind fun archive =>
    let slides := sortedNames archive "ppt/slides/slide"
    (readParts archive (xmlText lib) self.memberCap 0 slides).map joined

/-- `_xlsx_shared_strings` of what has been parsed. -/
def sharedItems (root : Element) : List String := (root.named "si").map Element.runs

/-- `_xlsx_shared_strings`. -/
def xlsxSharedStrings (archive : List ZipEntry) (cap : ℤ) : Except Raised (List String) :=
  match readMember archive "xl/sharedStrings.xml" cap with
  | .error (.value _) => .ok []
  | .error raised => .error raised
  | .ok xml => (safeParse lib xml).map sharedItems

/-- `_xlsx_cell_text`. -/
def xlsxCellText (shared : List String) (cell : Element) : String :=
  let cellType := cell.get "t"
  if cellType = some "inlineStr" then cell.runs
  else
    let value := ((cell.children.find? fun child => child.localName = "v").bind Element.text).getD ""
    if cellType = some "s" ∧ value ≠ "" then
      match intOf value with
      | none => value
      | some index => if 0 ≤ index then shared.getD index.toNat "" else ""
    else value

/-- The lines of a worksheet: its rows that have some text, with tabs between their cells. -/
def sheetLines (shared : List String) (root : Element) : List (List Char) :=
  (root.named "row").filterMap fun row =>
    let cells := (row.children.filter fun cell => cell.localName = "c").map (xlsxCellText shared)
    if cells.any (· ≠ "") then some (['\t'].intercalate (cells.map String.toList)) else none

def extractXlsx (data : Bytes) : Except Raised (List Char) :=
  (lib.zipFile data).bind fun archive =>
    (xlsxSharedStrings lib archive self.memberCap).bind fun shared =>
      let sheets := sortedNames archive "xl/worksheets/"
      let read := fun member => (safeParse lib member).map (sheetLines shared)
      (readParts archive read self.memberCap 0 sheets).map fun lines => joined lines.flatten

/-- `_extract_bytes`. -/
def extractBytes (extension : String) (data : Bytes) : Except Raised (List Char) :=
  if extension ∈ textExtensions then .ok (decodeText lib.native data).toList
  else if extension = "pdf" then extractPdf lib self data
  else if extension = "docx" then extractDocx lib self data
  else if extension = "xlsx" then extractXlsx lib self data
  else if extension = "pptx" then extractPptx lib self data
  else .error .unsupportedFormat

/-- The document of which no text is read, and why. -/
def refused (note : String) : ExtractedDocument := { text := "", truncated := false, supported := false, note }

/-- `DocumentTextExtractor.extract`. -/
def extract (fileName : String) (data : Bytes) : ExtractedDocument :=
  let extension := extensionFromFilename fileName
  if self.maxDocumentBytes < data.length then
    refused s!"the file is larger than the {self.maxDocumentBytes / (1024 * 1024)} MB limit for reading"
  else if data = [] then { text := "", truncated := false, supported := true }
  else
    match extractBytes lib self extension data with
    | .error .unsupportedFormat =>
      refused (if extension ≠ "" then s!"'.{extension}' is not a format I can read ({supportedHint})"
        else "I cannot tell what format this file is")
    | .error (.value kind) => refused s!"the file could not be parsed ({kind})"
    | .error (.other kind) => refused s!"the file could not be parsed ({kind})"
    | .ok raw =>
      let text := collapseWhitespace raw
      { text := String.ofList (text.take self.maxInputChars)
        truncated := decide (self.maxInputChars < text.length)
        supported := true }

end Extractor

end Transform.Documents
