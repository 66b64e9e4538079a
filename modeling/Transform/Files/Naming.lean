import Transform.Lib.Bytes
import Transform.Conversions.Job

/-!
# Files.Naming — extensions, signatures and content types of uploads

How a stored file is named, from what the client declared, the object key and what storage reports.
-/

namespace Transform.Files

open Lib Conversions

/-! ## Extensions -/

section Extensions

/-- `str.lower`, on the letters that can spell a known extension. -/
def lower (s : String) : String :=
  String.ofList (s.toList.flatMap fun c => match c with
    | '\u212a' => ['k']
    | '\u0130' => ['i', '\u0307']
    | c => [c.toLower])

/-- `str.lstrip(".")`. -/
def lstripDots (s : String) : String := String.ofList (s.toList.dropWhile (· = '.'))

/-- The width of `user_files.file_extension`. -/
def maxExtensionLength : ℕ := 20

def compoundExtensions : List String := ["tar.gz", "tar.bz2", "tar.xz"]

/-- A client-supplied extension in lower case, without its leading dots. -/
def normalizeExtension (extension : Option String) : String :=
  String.ofList ((lower (lstripDots (strip (extension.getD "")))).toList.take maxExtensionLength)

/-- `PurePosixPath(path).name`. -/
def pathName (path : String) : String :=
  String.ofList (((path.toList.splitOn '/').filter fun part => part ≠ [] ∧ part ≠ ['.']).getLast?.getD [])

/-- The text after the last dot; all of it where there is none. -/
def afterLastDot (s : String) : String := String.ofList (s.toList.reverse.takeWhile (· ≠ '.')).reverse

/-- The extension of a plain name: a known compound one, or what follows the last dot. -/
def extensionOfName (name : String) : String :=
  match compoundExtensions.find? fun compound => ("." ++ compound).toList.isSuffixOf (lower name).toList with
  | some compound => compound
  | none => String.ofList ((lower (afterLastDot name)).toList.take maxExtensionLength)

/-- The extension a file name carries; none for a name without a dot, with one at its end, or with one at its start. -/
def extensionFromFilename (fileName : String) : String :=
  let name := pathName (String.ofList (fileName.toList.map fun c => if c = '\\' then '/' else c))
  if name = "" ∨ name.toList.head? = some '.' then ""
  else if '.' ∉ name.toList ∨ afterLastDot name = "" then ""
  else extensionOfName name

end Extensions

/-! ## Signatures -/

section Signatures

/-- The leading bytes that tell a type, with its label. -/
def signatures : List (List Bytes × String) :=
  [([utf8 "%PDF-"], "pdf"), ([[0x89, 0x50, 0x4e, 0x47, 0x0d, 0x0a, 0x1a, 0x0a]], "png"), ([[0xff, 0xd8, 0xff]], "jpeg"),
    ([[0x50, 0x4b, 0x03, 0x04], [0x50, 0x4b, 0x05, 0x06], [0x50, 0x4b, 0x07, 0x08]], "zip"), ([[0x1f, 0x8b]], "gz"),
    ([utf8 "GIF87a", utf8 "GIF89a"], "gif"), ([utf8 "OggS"], "ogg"), ([utf8 "fLaC"], "flac"), ([utf8 "ID3"], "mp3"),
    ([[0xff, 0xfb], [0xff, 0xf3], [0xff, 0xf2]], "mp3"), ([utf8 "BM"], "bmp"), ([[0x00, 0x00, 0x01, 0x00]], "ico"),
    ([[0x1a, 0x45, 0xdf, 0xa3]], "webm"), ([utf8 "ftyp"], "mp4"), ([utf8 "\x7b"], "json"), ([utf8 "<"], "xml")]

/-- The brands of an ISO media container that are not plain `mp4`. -/
def isoBmffBrands : List (Bytes × String) :=
  [(utf8 "avif", "avif"), (utf8 "avis", "avif"), (utf8 "heic", "heic"), (utf8 "heix", "heic"), (utf8 "hevc", "heic"),
    (utf8 "hevx", "heic"), (utf8 "mif1", "heic"), (utf8 "msf1", "heic")]

/-- Extensions that are not checked. -/
def lenientExtensions : List String :=
  ["doc", "docx", "xls", "xlsx", "ppt", "pptx", "odt", "ods", "odp", "rtf", "txt", "md", "html", "csv", "xml", "json",
    "epub", "mobi", "azw3", "ttf", "woff", "woff2", "otf", "eot", "tar", "bz2", "xz", "m4a", "aac", "avi", "mkv", "svg"]

/-- The extensions a detected label stands for, where they are not just the label. -/
def signatureAliases : List (String × List String) :=
  [("jpeg", ["jpg", "jpeg"]), ("jpg", ["jpg", "jpeg"]), ("mp4", ["mp4", "mov", "m4v", "m4a", "m4b", "m4r", "alac"]),
    ("mov", ["mp4", "mov", "m4v", "m4a", "m4b", "m4r", "alac"]), ("ogg", ["ogg", "oga", "ogv", "opus", "spx"]),
    ("webm", ["webm"]), ("wav", ["wav"]), ("webp", ["webp"]), ("avif", ["avif"]), ("heic", ["heic", "heif"]),
    ("mp3", ["mp3"]), ("zip", ["zip"]), ("gz", ["gz"])]

/-- The type that the leading bytes tell, if any. -/
def detectType (head : Bytes) : Option String :=
  if 12 ≤ head.length ∧ head.take 4 = utf8 "RIFF" then
    some (if (head.drop 8).take 4 = utf8 "WEBP" then "webp" else "wav")
  else
    match signatures.find? fun (prefixes, _) => prefixes.any (·.isPrefixOf head) with
    | some (_, label) => some label
    | none =>
      if 12 ≤ head.length ∧ (head.drop 4).take 4 = utf8 "ftyp" then
        some ((isoBmffBrands.lookup ((head.drop 8).take 4)).getD "mp4")
      else none

/-- The leading bytes do not contradict the extension. -/
def validateUploadSignature (head : Bytes) (extension : String) : Bool :=
  let ext := lstripDots (lower extension)
  if ext ∈ lenientExtensions ∨ ext = "" then true
  else
    match detectType head with
    | none => true
    | some detected => ext ∈ (signatureAliases.lookup detected).getD [detected]

end Signatures

/-! ## Content types -/

section ContentTypes

def fallbackMimeType : String := "application/octet-stream"

/-- Values that say nothing of a file. -/
def genericMimeTypes : List String :=
  ["", fallbackMimeType, "binary/octet-stream", "application/x-www-form-urlencoded", "application/unknown",
    "application/binary", "unknown/unknown"]

def extensionMimeTypes : List (String × String) :=
  [("pdf", "application/pdf"), ("doc", "application/msword"),
    ("docx", "application/vnd.openxmlformats-officedocument.wordprocessingml.document"),
    ("odt", "application/vnd.oasis.opendocument.text"), ("rtf", "application/rtf"), ("txt", "text/plain"),
    ("md", "text/markdown"), ("markdown", "text/markdown"), ("csv", "text/csv"), ("tsv", "text/tab-separated-values"),
    ("json", "application/json"), ("xml", "application/xml"), ("yaml", "text/yaml"), ("yml", "text/yaml"),
    ("log", "text/plain"), ("html", "text/html"), ("htm", "text/html"), ("css", "text/css"),
    ("xls", "application/vnd.ms-excel"),
    ("xlsx", "application/vnd.openxmlformats-officedocument.spreadsheetml.sheet"),
    ("ods", "application/vnd.oasis.opendocument.spreadsheet"), ("ppt", "application/vnd.ms-powerpoint"),
    ("pptx", "application/vnd.openxmlformats-officedocument.presentationml.presentation"),
    ("odp", "application/vnd.oasis.opendocument.presentation"), ("png", "image/png"), ("jpg", "image/jpeg"),
    ("jpeg", "image/jpeg"), ("gif", "image/gif"), ("webp", "image/webp"), ("bmp", "image/bmp"),
    ("svg", "image/svg+xml"), ("avif", "image/avif"), ("heic", "image/heic"), ("heif", "image/heic"),
    ("ico", "image/x-icon"), ("tiff", "image/tiff"), ("tif", "image/tiff"), ("mp4", "video/mp4"),
    ("m4v", "video/mp4"), ("webm", "video/webm"), ("mov", "video/quicktime"), ("mkv", "video/x-matroska"),
    ("avi", "video/x-msvideo"), ("ogv", "video/ogg"), ("flv", "video/x-flv"), ("wmv", "video/x-ms-wmv"),
    ("mpg", "video/mpeg"), ("mpeg", "video/mpeg"), ("3gp", "video/3gpp"), ("mp3", "audio/mpeg"), ("wav", "audio/wav"),
    ("ogg", "audio/ogg"), ("oga", "audio/ogg"), ("opus", "audio/ogg"), ("flac", "audio/flac"), ("m4a", "audio/mp4"),
    ("alac", "audio/mp4"), ("m4b", "audio/mp4"), ("m4r", "audio/mp4"), ("aac", "audio/aac"),
    ("wma", "audio/x-ms-wma"), ("aiff", "audio/aiff"), ("mid", "audio/midi"), ("midi", "audio/midi"),
    ("zip", "application/zip"), ("gz", "application/gzip"), ("tar", "application/x-tar"),
    ("bz2", "application/x-bzip2"), ("xz", "application/x-xz"), ("7z", "application/x-7z-compressed"),
    ("rar", "application/vnd.rar"), ("epub", "application/epub+zip"), ("mobi", "application/x-mobipocket-ebook")]

/-- The content type of an extension; a compound one resolves on its last segment. -/
def mimeTypeFor (extension : String) : Option String :=
  let key := lstripDots (lower (strip extension))
  if key = "" then none
  else
    match extensionMimeTypes.lookup key with
    | some found => some found
    | none =>
      let outer := afterLastDot key
      if outer ≠ "" ∧ outer ≠ key then extensionMimeTypes.lookup outer else none

/-- The text before the first semicolon. -/
def beforeSemicolon (s : String) : String := String.ofList (s.toList.takeWhile (· ≠ ';'))

/-- The content type to store: the name decides, then what storage reports, if that says anything. -/
def resolveMimeType (fileName fileExtension : String) (reportedType : Option String) : String :=
  match mimeTypeFor fileExtension <|> mimeTypeFor (extensionFromFilename fileName) with
  | some byExtension => byExtension
  | none =>
    let reported := lower (strip (beforeSemicolon (reportedType.getD "")))
    if reported ≠ "" ∧ reported ∉ genericMimeTypes then reported else fallbackMimeType

end ContentTypes

end Transform.Files
