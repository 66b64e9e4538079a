import Mathlib.Algebra.GroupWithZero.Nat
import Transform.Lib.Proc
import Transform.Lib.FileTable
import Transform.Workspaces.Runtime

/-!
# Workspaces.Docker — how the Docker provider runs one execution

`execute` builds a shell script, runs it in the container of the workspace, and reads back four capture files that the
script has written.  The script's own steps are calls too: it changes directory, opens the captures, lets the program
write, and writes the exit code and the timeout flag.
-/

namespace Transform.Workspaces

open Lib Conversions

/-! ## Captures and programs -/

section Captures

/-- `/tmp/tf.out`, `/tmp/tf.err`, `/tmp/tf.code`, `/tmp/tf.timeout`. -/
inductive Capture
  | out
  | err
  | code
  | timeout
  deriving DecidableEq, Repr

/-- An exit status is a byte. -/
instance neZeroStatus : NeZero 256 := ⟨by decide⟩

/-- What a program does under `timeout -s KILL`, as far as the captures go: what it writes to its standard output and
error, in order, the exit status of `timeout`, and whether the time ran out.  A program that is killed gives 128 + 9. -/
structure ContainerProgram where
  writes : List (Capture × Bytes)
  status : Fin 256
  killed : Bool := false
  standard : ∀ path bytes, (path, bytes) ∈ writes → path = .out ∨ path = .err
  status_of_killed : killed = true → status = 137

/-- A request with its working directory. -/
structure DockerRequest extends ExecutionRequest where
  workdir : String := "."

/-- The shell script of one execution. -/
structure CaptureScript where
  workdir : String
  invocation : List String
  deriving DecidableEq, Repr

end Captures

/-! ## Ports -/

section Ports

inductive DockerOp
  | getContainer (providerRef : String)
  | reload
  | uuid4
  | putArchive (path : String) (payload : String)
  | execStart
  | execWait
  | elapsedMs
  | isFile (path : Capture)
  | head (path : Capture) (limit : ℕ)
  | remove (path : Capture)
  -- the steps of the script
  | chdir (workdir : String)
  | redirect (path : Capture)
  | spawn (invocation : List String)
  | write (path : Capture) (bytes : Bytes)
  -- what the caller is given
  | respond (answer : Except WorkError ExecutionOutcome)

abbrev DockerOp.Ans : DockerOp → Type
  | .getContainer _ => Unit
  | .reload => String
  | .uuid4 => String
  | .putArchive _ _ => Unit
  | .execStart => Unit
  | .execWait => Unit
  | .elapsedMs => ℤ
  | .isFile _ => Bool
  | .head _ _ => Bytes
  | .remove _ => Unit
  | .chdir _ => Bool
  | .redirect _ => Unit
  | .spawn _ => Unit
  | .write _ _ => Unit
  | .respond _ => Unit

abbrev DockerSig : Sig := ⟨DockerOp, DockerOp.Ans, WorkError⟩

abbrev DockerAct (α : Type) : Type := Act DockerSig WorkError α

def docker (op : DockerOp) : DockerAct op.Ans := @ask DockerSig op

/-- `bytes.decode("utf-8", "replace")`, and the `uv` command line of a project operation. -/
structure DockerContext where
  decode : Bytes → String
  uvArgv : String → Except WorkError (List String)

end Ports

/-! ## The script -/

section Script

def providerExecutionError (message : String) : WorkError := ⟨"ProviderExecutionError", true, message⟩

def providerResourceError (message : String) : WorkError := ⟨"ProviderResourceError", true, message⟩

def workspaceRoot : String := "/workspace"

/-- A workspace-relative path as an absolute one; a path that leaves the workspace is refused. -/
def workspaceRelativePath (relativePath : String) : Except WorkError String :=
  let raw := strip relativePath
  let segments := (raw.splitOn "/").filter fun part => part ≠ "" ∧ part ≠ "."
  if raw = "" ∨ raw = "." then .ok workspaceRoot
  else if '\x00' ∈ raw.toList ∨ raw.startsWith "~" then .error (providerResourceError "Invalid workspace path.")
  else if raw.startsWith "/" then .error (providerResourceError "Workspace paths must be relative.")
  else if ".." ∈ segments then .error (providerResourceError "Workspace paths may not contain '..'.")
  else .ok ("/".intercalate (workspaceRoot :: segments))

def buildScript (req : DockerRequest) (argv : List String) (workdir : String) : CaptureScript :=
  let seconds := toString (max 1 req.timeoutSeconds)
  if req.mode = .command then ⟨workdir, ["timeout", "-s", "KILL", seconds, "/bin/sh", "-lc", req.source]⟩
  else ⟨workdir, ["timeout", "-s", "KILL", seconds, "/bin/sh", "-c", "exec \"$@\"", "tf"] ++ argv⟩

/-- An exit status in decimal digits. -/
def decimal (n : ℕ) : Bytes := (Nat.toDigits 10 n).map fun digit => UInt8.ofNat digit.toNat

/-- A command of the script, whose failure the script ignores. -/
def quietly (p : DockerAct Unit) : DockerAct Unit := p.tryCatch fun _ => pure ()

/-- `printf … > path`. -/
def printf (path : Capture) (bytes : Bytes) : DockerAct Unit := do
  quietly (docker (.redirect path))
  quietly (docker (.write path bytes))

/-- The program writes. -/
def runWrites : List (Capture × Bytes) → DockerAct Unit
  | [] => pure ()
  | (path, bytes) :: writes => do
    quietly (docker (.write path bytes))
    runWrites writes

def noWorkdir : DockerAct Unit := do
  printf .err (utf8 "workspace working directory does not exist\n")
  printf .code (utf8 "127")
  printf .timeout (utf8 "0")

def runProgram (program : ContainerProgram) (invocation : List String) : DockerAct Unit := do
  quietly (docker (.redirect .out))
  quietly (docker (.redirect .err))
  quietly (docker (.spawn invocation))
  runWrites program.writes
  printf .code (decimal program.status)
  printf .timeout (if program.status = 137 then utf8 "1" else utf8 "0")

def runScript (program : ContainerProgram) (script : CaptureScript) : DockerAct Unit := do
  let found ← docker (.chdir script.workdir)
  if found then runProgram program script.invocation else noWorkdir

end Script

/-! ## An execution -/

section Execute

/-- `str.isspace` of an ASCII byte. -/
def isSpaceByte (b : UInt8) : Bool := b = 32 ∨ (9 ≤ b ∧ b ≤ 13) ∨ (28 ≤ b ∧ b ≤ 31)

/-- `bytes.decode().strip()` of ASCII bytes. -/
def decodeStripped (bytes : Bytes) : Except WorkError Bytes :=
  if bytes.all (· < 128) then .ok ((bytes.dropWhile isSpaceByte).reverse.dropWhile isSpaceByte).reverse
  else .error { name := "UnicodeDecodeError", message := "'utf-8' codec can't decode" }

def readDigits (digits : Bytes) : Option ℕ :=
  if digits ≠ [] ∧ digits.all (fun b => 48 ≤ b ∧ b ≤ 57) then
    some (digits.foldl (fun n b => 10 * n + (b.toNat - 48)) 0)
  else none

/-- `int(text)`; `none` for a `ValueError`. -/
def readInt : Bytes → Option ℤ
  | 43 :: digits => (readDigits digits).map fun n => (n : ℤ)
  | 45 :: digits => (readDigits digits).map fun n => -(n : ℤ)
  | digits => (readDigits digits).map fun n => (n : ℤ)

/-- The argv of a script is that of a file it was put into. -/
def prepareScript (source : String) : DockerAct (List String) := do
  let hex ← docker .uuid4
  let path := workspaceRoot ++ "/.transform/executions/" ++ hex ++ ".py"
  docker (.putArchive path source)
  pure ["uv", "run", "--no-sync", "python", path]

def argvOf (ctx : DockerContext) (req : DockerRequest) : DockerAct (List String) :=
  match req.mode with
  | .script => prepareScript req.source
  | .project => Act.ofExcept (ctx.uvArgv req.source)
  | .command => pure []

/-- `if [ -f path ]; then head -c limit path; fi`. -/
def readCapture (path : Capture) (limit : ℕ) : DockerAct Bytes := do
  let found ← docker (.isFile path)
  if found then docker (.head path limit) else pure []

def removeCaptures : DockerAct Unit := do
  docker (.remove .out)
  docker (.remove .err)
  docker (.remove .code)
  docker (.remove .timeout)

/-- Read the captures, remove them, and make an outcome of them. -/
def collectOutcome (ctx : DockerContext) (limit : ℕ) (elapsedMs : ℤ) : DockerAct ExecutionOutcome := do
  let stdout ← readCapture .out limit
  let stderr ← readCapture .err limit
  let code ← readCapture .code 24
  let codeRaw ← Act.ofExcept (decodeStripped code)
  let timeout ← readCapture .timeout 2
  let timeoutRaw ← Act.ofExcept (decodeStripped timeout)
  let timedOut := timeoutRaw = utf8 "1"
  removeCaptures
  pure
    { exitCode := if timedOut then none else readInt codeRaw
      stdout := ctx.decode stdout
      stderr := ctx.decode stderr
      durationMs := elapsedMs
      timedOut := timedOut }

/-- An exception of the SDK as one of the provider's. -/
def translate (e : WorkError) : WorkError :=
  if e.isProvider then e
  else if e.name = "NotFound" then
    ⟨"RuntimeNotFoundError", true, if e.message = "" then "Runtime not found." else e.message⟩
  else providerExecutionError (if e.message = "" then e.name else e.message)

def getContainer (providerRef : String) : DockerAct Unit :=
  (docker (.getContainer providerRef)).mapError fun e =>
    if e.name = "NotFound" then ⟨"RuntimeNotFoundError", true, "The runtime no longer exists on the provider."⟩ else e

/-- Run one request.  What the program does in the container is given. -/
def executeIn (ctx : DockerContext) (providerRef : String) (req : DockerRequest) (program : ContainerProgram) :
    DockerAct ExecutionOutcome := do
  getContainer providerRef
  let status ← docker .reload
  Act.ofExcept (if status = "running" then .ok ()
    else .error (providerExecutionError "The runtime is not running; start it before executing."))
  let workdir ← Act.ofExcept (workspaceRelativePath req.workdir)
  let argv ← argvOf ctx req
  docker .execStart
  runScript program (buildScript req argv workdir)
  docker .execWait
  let elapsedMs ← docker .elapsedMs
  collectOutcome ctx (max 1 req.maxOutputBytes) elapsedMs

def execute (ctx : DockerContext) (providerRef : String) (req : DockerRequest) (program : ContainerProgram) :
    DockerAct ExecutionOutcome := (executeIn ctx providerRef req program).mapError translate

end Execute

end Transform.Workspaces
