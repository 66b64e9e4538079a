import Transform.Conversions.Ports

/-!
# Worker.Paths — the file names of a conversion

Names of the downloaded input and of the converted output inside the work directory, and the key the output is
stored under.  A name is bounded so that the suffixes the storage client and the encryption add still fit.
-/

namespace Transform.Worker

open Lib Billing Conversions

/-- `Path(text).name`. -/
def pathName (text : String) : String :=
  String.ofList (((text.toList.splitOn '/').filter fun part => part ≠ [] ∧ part ≠ ['.']).getLast?.getD [])

/-- `text.rfind(".")`; `none` for -1. -/
def rfindDot (text : List Char) : Option ℕ :=
  (text.reverse.findIdx? (· = '.')).map fun i => text.length - 1 - i

/-- `Path(text).stem`. -/
def pathStem (text : String) : String :=
  let name := (pathName text).toList
  match rfindDot name with
  | some i => if 0 < i ∧ i < name.length - 1 then String.ofList (name.take i) else String.ofList name
  | none => String.ofList name

/-- `text[:stop]`, counted from the end where `stop` is negative. -/
def takeTo (text : List Char) (stop : ℤ) : List Char :=
  text.take (if stop < 0 then text.length + stop else stop).toNat

def maxFilenameLen : ℕ := 180

/-- A path-component-safe name of bounded length; the extension survives the cut. -/
def safeFilename (text : String) : String :=
  let name := if strip text = "" then "file".toList else (strip text).toList
  if name.length ≤ maxFilenameLen then String.ofList name
  else
    match rfindDot name with
    | some dot =>
      if 0 < dot ∧ dot < name.length - 1 then
        let ext := name.drop dot
        String.ofList (takeTo (name.take dot) ((maxFilenameLen : ℤ) - ext.length) ++ ext)
      else String.ofList (name.take maxFilenameLen)
    | none => String.ofList (name.take maxFilenameLen)

/-- What a converter declares for the extension of its result: nothing, a text, or a hook on the input. -/
inductive DeclaredExtension
  | undeclared
  | fixed (extension : String)
  | hook
  deriving DecidableEq, Repr

/-- What the worker is wired with.  `price` is the compute price before the minimum of one credit. -/
structure WorkerContext where
  jobRepository : Bool
  encryptionService : Bool
  creditPort : Bool
  converters : List ConversionType
  declaredExtension : ConversionType → DeclaredExtension
  baseTargetKey : String
  price : ℕ → ConversionType → SubscriptionTier → ℤ

/-- `str(resolved).lstrip(".").lower()`, or the default where nothing is declared. -/
def normalExtension (resolved : Option String) (default : String) : String :=
  match resolved with
  | none => default
  | some "" => default
  | some ext => String.ofList ((ext.toList.dropWhile (· = '.')).map Char.toLower)

/-- The extension of the output; a hook is asked with the downloaded input. -/
def converterOutputExtension (ctx : WorkerContext) (conversion : ConversionType) (inputPath : WorkPath) :
    Py String :=
  if conversion ∉ ctx.converters then pure conversion.targetFormat
  else match ctx.declaredExtension conversion with
  | .undeclared => pure conversion.targetFormat
  | .fixed ext => pure (normalExtension (some ext) conversion.targetFormat)
  | .hook => do
    let resolved ← call (.file (.outputExtension conversion inputPath))
    return normalExtension resolved conversion.targetFormat

def resolveInputPath (fileLocation : String) : WorkPath := ⟨"downloads", safeFilename (pathName fileLocation)⟩

def resolveOutputPath (ctx : WorkerContext) (fileLocation : String) (conversion : ConversionType)
    (inputPath : WorkPath) : Py WorkPath := do
  let fileName := safeFilename (pathName fileLocation)
  let safeStem := safeFilename (pathStem fileName)
  let extension ← converterOutputExtension ctx conversion inputPath
  return ⟨"uploads", s!"{safeStem}.{extension}"⟩

/-- The key a user's data is encrypted under. -/
def actorKey (job : ConversionJob) : String :=
  match job.userId with
  | some u => u.repr
  | none => "guest"

/-- `text.rstrip("/")`. -/
def rstripSlash (text : String) : String := String.ofList (text.toList.reverse.dropWhile (· = '/')).reverse

/-- Where the output is stored: under its user and its job, so that no two jobs share a key. -/
def outputKey (ctx : WorkerContext) (job : ConversionJob) (outputFile : WorkPath) : String :=
  s!"{rstripSlash ctx.baseTargetKey}/user/{actorKey job}/job/{job.jobId}/{outputFile.name}"

end Transform.Worker
