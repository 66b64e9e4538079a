import Transform.Lib.Watch
import Transform.Workspaces.Docker

/-!
# Workspaces.Captures — executions that share a container's capture files

Any number of executions in one container, interleaved step by step, each stopping anywhere.  The captures have fixed
names, so an execution reads back its own only while no other touches them between its first redirection and its last
read, and it can tell a timeout only from programs that do not exit with 137 themselves (`own_outcome`); otherwise an
outcome carries what another program wrote (`outcomes_mixed`).
-/

namespace Transform.Workspaces

open Lib Conversions

/-! ## The container -/

section System

/-- An execution: its runtime, its request, and what its program does. -/
structure DockerParty where
  providerRef : String
  req : DockerRequest
  program : ContainerProgram

def DockerParty.thread (ctx : DockerContext) (party : DockerParty) : Proc DockerSig Unit :=
  (execute ctx party.providerRef party.req party.program).run.bind fun answer =>
    .call (.respond answer) fun _ => .ret ()

/-- What an execution has written itself: whether its program ran, and its standard output and error. -/
structure OwnOutput where
  ran : Bool := true
  out : Bytes := []
  err : Bytes := []
  deriving DecidableEq, Repr

def OwnOutput.append (own : OwnOutput) (path : Capture) (bytes : Bytes) : OwnOutput :=
  match path with
  | .out => { own with out := own.out ++ bytes }
  | .err => { own with err := own.err ++ bytes }
  | _ => own

/-- The capture files, and of each execution the descriptors it has open, each with its offset.  Beside them, whether the
execution is between its first redirection and its last read, and what it has written. -/
structure CaptureWorld where
  files : FileTable Capture := .empty
  fds : ℕ → Capture → Option (ℕ × ℕ) := fun _ _ => none
  window : ℕ → Bool := fun _ => false
  own : ℕ → OwnOutput := fun _ => {}

namespace CaptureWorld

variable (w : CaptureWorld) (i : ℕ)

def enter : CaptureWorld :=
  { w with
    fds := Function.update w.fds i fun _ => none
    window := Function.update w.window i false
    own := Function.update w.own i {} }

/-- Without the working directory the script writes at once. -/
def chdir (found : Bool) : CaptureWorld :=
  { w with
    window := Function.update w.window i !found
    own := Function.update w.own i { ran := found } }

def redirect (path : Capture) : CaptureWorld :=
  let files := w.files.openTrunc path
  { w with
    files := files
    fds := Function.update w.fds i (Function.update (w.fds i) path ((files.names path).map fun n => (n, 0)))
    window := Function.update w.window i true }

/-- Through the descriptor that the path was opened by, at its offset. -/
def write (path : Capture) (bytes : Bytes) : CaptureWorld :=
  { w with
    files := (w.fds i path).elim w.files fun fd => w.files.writeAt fd.1 fd.2 bytes
    fds := Function.update w.fds i (Function.update (w.fds i) path ((w.fds i path).map fun fd => (fd.1, fd.2 + bytes.length)))
    own := Function.update w.own i ((w.own i).append path bytes) }

def close : CaptureWorld := { w with window := Function.update w.window i false }

def apply : Event DockerSig → CaptureWorld
  | ⟨.chdir _, .ok found, _, _⟩ => w.chdir i found
  | ⟨.redirect path, .ok _, _, _⟩ => w.redirect i path
  | ⟨.write path bytes, _, true, _⟩ => w.write i path bytes
  | ⟨.isFile .timeout, .ok false, _, _⟩ => w.close i
  | ⟨.head .timeout _, .ok _, _, _⟩ => w.close i
  | ⟨.remove path, _, true, _⟩ => { w with files := w.files.unlink path }
  | ⟨.respond _, _, _, _⟩ => w.close i
  | _ => w

/-- A capture is read as it stands; if it went between the test and `head`, what `head` says is read.  The shell's own
steps do not fail, but for a write. -/
def Allowed : Event DockerSig → Prop
  | ⟨.chdir _, .error _, _, _⟩ => False
  | ⟨.redirect _, .error _, _, _⟩ => False
  | ⟨.isFile path, .ok found, _, _⟩ => found = (w.files.content path).isSome
  | ⟨.head path limit, .ok bytes, _, _⟩ => ∀ content ∈ w.files.content path, bytes = content.take limit
  | _ => True

instance decidableAllowed (ev : Event DockerSig) : Decidable (w.Allowed ev) := by
  unfold Allowed
  split <;> infer_instance

end CaptureWorld

/-- The executions of one container. -/
def dockerSystem (ctx : DockerContext) : Sys DockerSig where
  World := CaptureWorld
  Tag := DockerParty
  spawn w i party p w' := w' = w.enter i ∧ p = party.thread ctx
  Allowed w _ _ ev := w.Allowed ev
  apply w i _ ev := w.apply i ev

/-- Nothing runs; the captures are as they may have been left. -/
def DockerStart {ctx : DockerContext} (c : (dockerSystem ctx).Config) : Prop := ∀ i, c.threads i = none

end System

/-! ## What an execution knows of the captures -/

section Monitor

/-- What an execution knows in its window: what it has left in which capture (`some none`: nothing); and what it has
written. -/
structure Grasp where
  files : Capture → Option (Option Bytes) := fun _ => none
  own : OwnOutput := {}

namespace Grasp

variable (g : Grasp)

def opened (path : Capture) : Grasp := { g with files := Function.update g.files path (some (some [])) }

def wrote (path : Capture) (bytes : Bytes) : Grasp where
  files := Function.update g.files path ((g.files path).map fun content => content.map (· ++ bytes))
  own := g.own.append path bytes

def closed : Grasp := { g with files := fun _ => none }

theorem files_opened (path : Capture) : (g.opened path).files path = some (some []) := Function.update_self ..

variable {g}

theorem files_wrote {path : Capture} {content bytes : Bytes} (h : g.files path = some (some content)) :
    (g.wrote path bytes).files path = some (some (content ++ bytes)) := by
  show Function.update g.files path ((g.files path).map fun content => content.map (· ++ bytes)) path = _
  rw [Function.update_self, h]
  rfl

end Grasp

def graspStep (g : Grasp) : Event DockerSig → Grasp
  | ⟨.chdir _, .ok found, _, _⟩ =>
    { files := Function.update (fun _ => none) .out (if found then none else some none)
      own := { ran := found } }
  | ⟨.redirect path, .ok _, _, _⟩ => g.opened path
  | ⟨.write path bytes, _, true, _⟩ => g.wrote path bytes
  | ⟨.isFile .timeout, .ok false, _, _⟩ => g.closed
  | ⟨.head .timeout _, .ok _, _, _⟩ => g.closed
  | ⟨.respond _, _, _, _⟩ => g.closed
  | _ => g

/-- The outcome of what the execution's own program has written and how it ended. -/
def ownOutcome (ctx : DockerContext) (party : DockerParty) (own : OwnOutput) (durationMs : ℤ) : ExecutionOutcome :=
  let limit := max 1 party.req.maxOutputBytes
  { exitCode :=
      if own.ran = false then some 127
      else if party.program.killed then none
      else some (party.program.status : ℕ)
    stdout := ctx.decode (own.out.take limit)
    stderr := ctx.decode (own.err.take limit)
    durationMs := durationMs
    timedOut := own.ran && party.program.killed }

/-- An outcome is returned of what the program itself has written; a capture is written that the execution has opened, and
removed when its window is over. -/
def Returns (ctx : DockerContext) (party : DockerParty) (g : Grasp) : DockerOp → Prop
  | .respond (.ok outcome) => outcome = ownOutcome ctx party g.own outcome.durationMs
  | .remove _ => ∀ path, g.files path = none
  | .write path _ => ∃ content, g.files path = some (some content)
  | _ => True

/-- What an execution relies on: in its window a capture is read as it has left it; and of its own steps, that the exit
code and the flag are written, and that 137 means a timeout. -/
def ReadsOwn (party : DockerParty) (g : Grasp) : Event DockerSig → Prop
  | ⟨.redirect _, .error _, _, _⟩ => False
  | ⟨.spawn _, _, _, _⟩ => party.program.status = 137 → party.program.killed = true
  | ⟨.write path _, _, took, _⟩ => path = .code ∨ path = .timeout → took = true
  | ⟨.isFile path, .ok found, _, _⟩ => ∀ content, g.files path = some content → found = content.isSome
  | ⟨.head path limit, .ok bytes, _, _⟩ => ∀ content, g.files path = some (some content) → bytes = content.take limit
  | _ => True

def captureMonitor (ctx : DockerContext) (party : DockerParty) : Monitor DockerSig Grasp where
  pre := Returns ctx party
  rely := ReadsOwn party
  step := graspStep

variable {ctx : DockerContext} {party : DockerParty} {g : Grasp}

theorem redirect_spec {path : Capture} {Q : Unit → Grasp → Prop} {E : WorkError → Grasp → Prop} (h : Q () (g.opened path)) :
    wpe (captureMonitor ctx party) (quietly (docker (.redirect path))) Q E g := by
  unfold quietly
  rw [wpe_tryCatch]
  exact wpe_ask.2 ⟨trivial, fun _ _ => h, fun _ _ _ hrely => hrely.elim⟩

theorem write_spec {path : Capture} {bytes : Bytes} {Q : Unit → Grasp → Prop} {E : WorkError → Grasp → Prop}
    (hopen : ∃ content, g.files path = some (some content)) (hwrote : Q () (g.wrote path bytes))
    (hlost : path ≠ .code → path ≠ .timeout → Q () g) :
    wpe (captureMonitor ctx party) (quietly (docker (.write path bytes))) Q E g := by
  unfold quietly
  rw [wpe_tryCatch]
  refine wpe_ask.2 ⟨hopen, fun _ _ => hwrote, fun e took hk hrely => ?_⟩
  cases took with
  | true => exact hwrote
  | false =>
    have hnot : ¬ (path = .code ∨ path = .timeout) := fun h => (by cases hrely h)
    exact hlost (fun h => hnot (.inl h)) fun h => hnot (.inr h)

/-- The code and the flag are as they are printed, and nothing else has changed. -/
theorem printf_spec {path : Capture} {bytes : Bytes} {Q : Unit → Grasp → Prop} {E : WorkError → Grasp → Prop}
    (hpath : path = .code ∨ path = .timeout)
    (h : Q () { g with files := Function.update g.files path (some (some bytes)) }) :
    wpe (captureMonitor ctx party) (printf path bytes) Q E g := by
  unfold printf
  rw [wpe_bind]
  refine redirect_spec (write_spec ⟨[], g.files_opened path⟩ ?_ fun h1 h2 => (hpath.elim h1 h2).elim)
  have hfiles : ((g.opened path).wrote path bytes).files = Function.update g.files path (some (some bytes)) := by
    have hself : ((g.opened path).wrote path bytes).files path = some (some ([] ++ bytes)) :=
      Grasp.files_wrote (g.files_opened path)
    unfold Grasp.wrote Grasp.opened at hself ⊢
    dsimp only at hself ⊢
    rw [Function.update_self] at hself
    rw [hself, Function.update_idem]
    rfl
  have hwrote : (g.opened path).wrote path bytes = { g with files := Function.update g.files path (some (some bytes)) } := by
    rw [← hfiles]
    rcases hpath with rfl | rfl <;> rfl
  rw [hwrote]
  exact h

/-- The program runs: its output is in the captures. -/
structure Grasp.Running (g : Grasp) : Prop where
  ran : g.own.ran = true
  out : g.files .out = some (some g.own.out)
  err : g.files .err = some (some g.own.err)

theorem running_wrote {path : Capture} {bytes : Bytes} (hg : g.Running) (hpath : path = .out ∨ path = .err) :
    (g.wrote path bytes).Running := by
  rcases hpath with rfl | rfl
  · exact ⟨hg.ran, Grasp.files_wrote hg.out, hg.err⟩
  · exact ⟨hg.ran, hg.out, Grasp.files_wrote hg.err⟩

theorem runWrites_spec {E : WorkError → Grasp → Prop} : ∀ {writes : List (Capture × Bytes)} {g : Grasp},
    (∀ path bytes, (path, bytes) ∈ writes → path = .out ∨ path = .err) → g.Running →
      wpe (captureMonitor ctx party) (runWrites writes) (fun _ g' => g'.Running) E g
  | [], _, _, hg => hg
  | (path, bytes) :: writes, g, hstandard, hg => by
    have hpath := hstandard path bytes (List.mem_cons_self ..)
    have hrest : ∀ path bytes, (path, bytes) ∈ writes → path = .out ∨ path = .err :=
      fun path bytes h => hstandard path bytes (List.mem_cons_of_mem _ h)
    have hopen : ∃ content, g.files path = some (some content) := by
      rcases hpath with rfl | rfl
      · exact ⟨_, hg.out⟩
      · exact ⟨_, hg.err⟩
    unfold runWrites
    rw [wpe_bind]
    exact write_spec hopen (runWrites_spec hrest (running_wrote hg hpath)) fun _ _ => runWrites_spec hrest hg

/-- The flag of the script, of a program of which 137 means a timeout. -/
def flagOf (own : OwnOutput) (program : ContainerProgram) : Bytes :=
  if own.ran && program.killed then utf8 "1" else utf8 "0"

/-- The script is over: what it has left in the captures. -/
structure Grasp.Written (g : Grasp) (program : ContainerProgram) : Prop where
  out : g.files .out = some (if g.own.ran then some g.own.out else none)
  nothing : g.own.ran = false → g.own.out = []
  err : g.files .err = some (some g.own.err)
  code : g.files .code = some (some (if g.own.ran then decimal program.status else utf8 "127"))
  timeout : g.files .timeout = some (some (flagOf g.own program))

theorem noWorkdir_spec {E : WorkError → Grasp → Prop} (hran : g.own.ran = false) (hout : g.own.out = [])
    (herr : g.own.err = []) (hnone : g.files .out = some none) :
    wpe (captureMonitor ctx party) noWorkdir (fun _ g' => g'.Written party.program) E g := by
  have hrest : ∀ g' : Grasp, g'.own.ran = false → g'.own.out = [] → g'.files .out = some none →
      g'.files .err = some (some g'.own.err) →
      wpe (captureMonitor ctx party) (do printf .code (utf8 "127"); printf .timeout (utf8 "0"))
        (fun _ g' => g'.Written party.program) E g' := by
    intro g' hran hout hnone herr
    rw [wpe_bind]
    refine printf_spec (.inl rfl) (printf_spec (.inr rfl) ⟨?_, fun _ => hout, herr, ?_, ?_⟩)
    · show g'.files .out = _
      rw [hnone, hran]
      rfl
    · show some (some (utf8 "127")) = some (some (if g'.own.ran then decimal party.program.status else utf8 "127"))
      rw [hran]
      rfl
    · show some (some (utf8 "0")) = some (some (flagOf g'.own party.program))
      unfold flagOf
      rw [hran]
      rfl
  unfold noWorkdir
  rw [wpe_bind]
  unfold printf
  rw [wpe_bind]
  have hempty : (g.opened .err).files .err = some (some (g.opened .err).own.err) := by
    rw [g.files_opened]
    exact congrArg (fun err => some (some err)) herr.symm
  exact redirect_spec (write_spec ⟨_, hempty⟩ (hrest _ hran hout hnone (Grasp.files_wrote hempty))
    fun _ _ => hrest _ hran hout hnone hempty)

/-- The program's exit status is read for a timeout rightly. -/
theorem runProgram_spec {invocation : List String} {E : WorkError → Grasp → Prop} (hown : g.own = { ran := true }) :
    wpe (captureMonitor ctx party) (runProgram party.program invocation) (fun _ g' => g'.Written party.program) E g := by
  have hran : g.own.ran = true := by rw [hown]
  unfold runProgram
  rw [wpe_bind]
  refine redirect_spec ?_
  rw [wpe_bind]
  refine redirect_spec ?_
  have hrunning : ((g.opened .out).opened .err).Running := by
    refine ⟨hran, ?_, ?_⟩
    · show Function.update (g.opened .out).files .err (some (some [])) .out = some (some g.own.out)
      rw [Function.update_of_ne Capture.noConfusion, g.files_opened, hown]
    · rw [Grasp.files_opened]
      show some (some []) = some (some g.own.err)
      rw [hown]
  have hrest : (party.program.status = 137 → party.program.killed = true) →
      wpe (captureMonitor ctx party) (do
        runWrites party.program.writes
        printf .code (decimal party.program.status)
        printf .timeout (if party.program.status = 137 then utf8 "1" else utf8 "0"))
        (fun _ g' => g'.Written party.program) E ((g.opened .out).opened .err) := by
    intro hspawned
    have hflag : (if party.program.status = 137 then utf8 "1" else utf8 "0") = flagOf { ran := true } party.program := by
      by_cases hstatus : party.program.status = 137
      · rw [if_pos hstatus, flagOf, hspawned hstatus]
        rfl
      · have hkilled : party.program.killed = false := by
          by_contra h
          exact hstatus (party.program.status_of_killed (by simpa using h))
        rw [if_neg hstatus, flagOf, hkilled]
        rfl
    rw [wpe_bind]
    refine wpe_mono (runWrites_spec party.program.standard hrunning) (fun _ g' hg => ?_) fun _ _ h => h
    rw [wpe_bind]
    refine printf_spec (.inl rfl) (printf_spec (.inr rfl) ⟨?_, fun h => ?_, hg.err, ?_, ?_⟩)
    · show g'.files .out = some (if g'.own.ran then some g'.own.out else none)
      rw [hg.ran, hg.out]
      rfl
    · have h' : g'.own.ran = false := h
      rw [hg.ran] at h'
      cases h'
    · show some (some (decimal party.program.status)) =
        some (some (if g'.own.ran then decimal party.program.status else utf8 "127"))
      rw [hg.ran]
      rfl
    · show some (some (if party.program.status = 137 then utf8 "1" else utf8 "0")) = some (some (flagOf g'.own party.program))
      rw [hflag]
      unfold flagOf
      rw [hg.ran]
  rw [wpe_bind]
  unfold quietly
  rw [wpe_tryCatch]
  exact wpe_ask.2 ⟨trivial, fun _ hrely => hrest hrely, fun _ _ _ hrely => hrest hrely⟩

theorem runScript_spec {script : CaptureScript} {E : WorkError → Grasp → Prop} (hE : ∀ e g, E e g) :
    wpe (captureMonitor ctx party) (runScript party.program script) (fun _ g' => g'.Written party.program) E g := by
  unfold runScript
  rw [wpe_bind]
  refine wpe_ask.2 ⟨trivial, fun found _ => ?_, fun e _ _ _ => hE e _⟩
  cases found with
  | true => exact runProgram_spec rfl
  | false => exact noWorkdir_spec rfl rfl rfl rfl

/-! ### Reading back -/

theorem readCapture_spec {path : Capture} {limit : ℕ} {content : Option Bytes} {E : WorkError → Grasp → Prop}
    (hpath : path ≠ .timeout) (hE : ∀ e g, E e g) (hknown : g.files path = some content) :
    wpe (captureMonitor ctx party) (readCapture path limit)
      (fun bytes g' => g' = g ∧ bytes = (content.getD []).take limit) E g := by
  have hstep : ∀ found, graspStep g (Event.done (.isFile path) (.ok found)) = g := by
    intro found
    cases path with
    | timeout => exact absurd rfl hpath
    | _ => rfl
  have hstep' : ∀ bytes, graspStep g (Event.done (.head path limit) (.ok bytes)) = g := by
    intro bytes
    cases path with
    | timeout => exact absurd rfl hpath
    | _ => rfl
  unfold readCapture
  rw [wpe_bind]
  refine wpe_ask.2 ⟨trivial, fun found hrely => ?_, fun e _ _ _ => hE e _⟩
  have hfound : found = content.isSome := hrely content hknown
  show wpe (captureMonitor ctx party) _ _ _ (graspStep g _)
  rw [hstep]
  rcases content with _ | bytes
  · subst hfound
    exact ⟨rfl, by simp⟩
  · subst hfound
    refine wpe_ask.2 ⟨trivial, fun read hrely => ?_, fun e _ _ _ => hE e _⟩
    exact ⟨hstep' _, hrely bytes hknown⟩

theorem readFlag_spec {limit : ℕ} {content : Bytes} {E : WorkError → Grasp → Prop} (hE : ∀ e g, E e g)
    (hknown : g.files .timeout = some (some content)) :
    wpe (captureMonitor ctx party) (readCapture .timeout limit)
      (fun bytes g' => g' = g.closed ∧ bytes = content.take limit) E g := by
  unfold readCapture
  rw [wpe_bind]
  refine wpe_ask.2 ⟨trivial, fun found hrely => ?_, fun e _ _ _ => hE e _⟩
  obtain rfl : found = true := hrely (some content) hknown
  refine wpe_ask.2 ⟨trivial, fun read hrely => ?_, fun e _ _ _ => hE e _⟩
  exact ⟨rfl, hrely content hknown⟩

theorem removeCaptures_spec {E : WorkError → Grasp → Prop} (hE : ∀ e g, E e g) (hclosed : ∀ path, g.files path = none) :
    wpe (captureMonitor ctx party) removeCaptures (fun _ g' => g' = g) E g := by
  unfold removeCaptures
  rw [wpe_bind]
  refine wpe_ask.2 ⟨hclosed, fun _ _ => ?_, fun e _ _ _ => hE e _⟩
  rw [wpe_bind]
  refine wpe_ask.2 ⟨hclosed, fun _ _ => ?_, fun e _ _ _ => hE e _⟩
  rw [wpe_bind]
  refine wpe_ask.2 ⟨hclosed, fun _ _ => ?_, fun e _ _ _ => hE e _⟩
  exact wpe_ask.2 ⟨hclosed, fun _ _ => rfl, fun e _ _ _ => hE e _⟩

theorem read_decimal (status : Fin 256) : decodeStripped ((decimal status).take 24) = .ok (decimal status) ∧
    readInt (decimal status) = some ((status : ℕ) : ℤ) := by
  revert status
  decide +kernel

theorem read_flag (own : OwnOutput) (program : ContainerProgram) :
    decodeStripped ((flagOf own program).take 2) = .ok (flagOf own program) ∧
      (flagOf own program = utf8 "1" ↔ (own.ran && program.killed) = true) := by
  unfold flagOf
  rcases own.ran && program.killed with _ | _ <;> decide

theorem read_127 : decodeStripped ((utf8 "127").take 24) = .ok (utf8 "127") ∧ readInt (utf8 "127") = some 127 := by
  decide +kernel

theorem collectOutcome_spec {elapsedMs : ℤ} {E : WorkError → Grasp → Prop} (hE : ∀ e g, E e g)
    (hg : g.Written party.program) :
    wpe (captureMonitor ctx party) (collectOutcome ctx (max 1 party.req.maxOutputBytes) elapsedMs)
      (fun outcome g' => outcome = ownOutcome ctx party g'.own outcome.durationMs) E g := by
  unfold collectOutcome
  rw [wpe_bind]
  refine wpe_mono (readCapture_spec Capture.noConfusion hE hg.out) ?_ fun _ _ h => h
  rintro stdout _ ⟨rfl, hstdout⟩
  rw [wpe_bind]
  refine wpe_mono (readCapture_spec Capture.noConfusion hE hg.err) ?_ fun _ _ h => h
  rintro stderr _ ⟨rfl, hstderr⟩
  rw [wpe_bind]
  refine wpe_mono (readCapture_spec Capture.noConfusion hE hg.code) ?_ fun _ _ h => h
  rintro code g ⟨rfl, hcode⟩
  rw [wpe_bind]
  refine wpe_ofExcept (fun codeRaw hcodeRaw => ?_) fun _ _ => hE _ _
  rw [wpe_bind]
  refine wpe_mono (readFlag_spec hE hg.timeout) ?_ fun _ _ h => h
  rintro timeout _ ⟨rfl, htimeout⟩
  rw [wpe_bind]
  refine wpe_ofExcept (fun timeoutRaw htimeoutRaw => ?_) fun _ _ => hE _ _
  rw [wpe_bind]
  refine wpe_mono (removeCaptures_spec hE fun _ => rfl) ?_ fun _ _ h => h
  rintro _ _ rfl
  obtain ⟨hflag, htimedOut⟩ := read_flag g.own party.program
  have hraw : timeoutRaw = flagOf g.own party.program := by
    rw [htimeout, hflag] at htimeoutRaw
    exact (Except.ok.inj htimeoutRaw).symm
  have hout : stdout = g.own.out.take (max 1 party.req.maxOutputBytes) := by
    rw [hstdout]
    rcases hran : g.own.ran with _ | _
    · rw [hg.nothing hran]
      rfl
    · rfl
  have hcodeOf : readInt codeRaw = some (if g.own.ran = false then 127 else ((party.program.status : ℕ) : ℤ)) := by
    rw [hcode] at hcodeRaw
    rcases hran : g.own.ran with _ | _
    · rw [hran] at hcodeRaw
      obtain rfl : utf8 "127" = codeRaw := Except.ok.inj (read_127.1.symm.trans hcodeRaw)
      exact read_127.2
    · rw [hran] at hcodeRaw
      obtain ⟨hdecoded, hread⟩ := read_decimal party.program.status
      obtain rfl : decimal party.program.status = codeRaw := Except.ok.inj (hdecoded.symm.trans hcodeRaw)
      exact hread
  show ({ exitCode := if timeoutRaw = utf8 "1" then none else readInt codeRaw
          stdout := ctx.decode stdout
          stderr := ctx.decode stderr
          durationMs := elapsedMs
          timedOut := decide (timeoutRaw = utf8 "1") } : ExecutionOutcome) = ownOutcome ctx party g.own elapsedMs
  rw [hraw, hout, hstderr, hcodeOf]
  unfold ownOutcome
  rcases hran : g.own.ran with _ | _
  · have hne : ¬ flagOf g.own party.program = utf8 "1" := by
      rw [htimedOut, hran, Bool.false_and]
      decide
    rw [if_neg hne, decide_eq_false hne]
    rfl
  · rcases hkilled : party.program.killed with _ | _
    · have hne : ¬ flagOf g.own party.program = utf8 "1" := by
        rw [htimedOut, hran, hkilled]
        decide
      rw [if_neg hne, decide_eq_false hne]
      rfl
    · have heq : flagOf g.own party.program = utf8 "1" := by
        rw [htimedOut, hran, hkilled]
        rfl
      rw [if_pos heq, decide_eq_true heq]
      rfl

theorem argvOf_spec {req : DockerRequest} {E : WorkError → Grasp → Prop} (hE : ∀ e g, E e g) :
    wpe (captureMonitor ctx party) (argvOf ctx req) (fun _ _ => True) E g := by
  unfold argvOf
  split
  · unfold prepareScript
    rw [wpe_bind]
    refine wpe_ask.2 ⟨trivial, fun _ _ => ?_, fun e _ _ _ => hE e _⟩
    rw [wpe_bind]
    exact wpe_ask.2 ⟨trivial, fun _ _ => trivial, fun e _ _ _ => hE e _⟩
  · exact wpe_ofExcept (fun _ _ => trivial) fun _ _ => hE _ _
  · trivial

/-- **What an execution returns**, if it reads back what it has left: the outcome of its own program. -/
theorem execute_spec : wpe (captureMonitor ctx party) (execute ctx party.providerRef party.req party.program)
    (fun outcome g' => outcome = ownOutcome ctx party g'.own outcome.durationMs) (fun _ _ => True) g := by
  unfold execute
  rw [wpe_mapError]
  unfold executeIn getContainer
  rw [wpe_bind, wpe_mapError]
  refine wpe_ask.2 ⟨trivial, fun _ _ => ?_, fun _ _ _ _ => trivial⟩
  rw [wpe_bind]
  refine wpe_ask.2 ⟨trivial, fun _ _ => ?_, fun _ _ _ _ => trivial⟩
  rw [wpe_bind]
  refine wpe_ofExcept (fun _ _ => ?_) fun _ _ => trivial
  rw [wpe_bind]
  refine wpe_ofExcept (fun workdir _ => ?_) fun _ _ => trivial
  rw [wpe_bind]
  refine wpe_mono (argvOf_spec fun _ _ => trivial) (fun argv g' _ => ?_) fun _ _ _ => trivial
  rw [wpe_bind]
  refine wpe_ask.2 ⟨trivial, fun _ _ => ?_, fun _ _ _ _ => trivial⟩
  rw [wpe_bind]
  refine wpe_mono (runScript_spec fun _ _ => trivial) (fun _ g'' hwritten => ?_) fun _ _ _ => trivial
  rw [wpe_bind]
  refine wpe_ask.2 ⟨trivial, fun _ _ => ?_, fun _ _ _ _ => trivial⟩
  rw [wpe_bind]
  refine wpe_ask.2 ⟨trivial, fun elapsedMs _ => ?_, fun _ _ _ _ => trivial⟩
  exact collectOutcome_spec (fun _ _ => trivial) hwritten

theorem thread_returns : wp (captureMonitor ctx party) (party.thread ctx) (fun _ _ => True) g := by
  unfold DockerParty.thread
  refine wp_bind.2 (wp_mono (fun answer g' hanswer => ?_) execute_spec)
  rcases answer with e | outcome
  · exact ⟨trivial, fun _ _ _ _ => trivial⟩
  · exact ⟨hanswer, fun _ _ _ _ => trivial⟩

end Monitor

/-! ## Runs -/

section Runs

variable {ctx : DockerContext} {party : DockerParty} {g : Grasp} {w : CaptureWorld} {i j : ℕ}

/-- No other running execution is in its window. -/
def Apart (c : (dockerSystem ctx).Config) (w : CaptureWorld) (i : ℕ) : Prop :=
  ∀ j, j ≠ i → (c.threads j).isSome = true → w.window j = false

/-- No capture is opened, written or removed while another running execution is in its window; an execution without its
working directory finds no standard output left by another; the exit code and the flag are written; and the program exits
with 137 only if the time ran out. -/
def Undisturbed (c : (dockerSystem ctx).Config) (w : CaptureWorld) (i : ℕ) (party : DockerParty) : Event DockerSig → Prop
  | ⟨.chdir _, .ok false, _, _⟩ => w.files.content .out = none
  | ⟨.redirect _, _, _, _⟩ => Apart c w i
  | ⟨.spawn _, _, _, _⟩ => party.program.status = 137 → party.program.killed = true
  | ⟨.write path _, _, took, _⟩ => Apart c w i ∧ (path = .code ∨ path = .timeout → took = true)
  | ⟨.remove _, _, _, _⟩ => Apart c w i
  | _ => True

def UndisturbedAt (ctx : DockerContext) (c : (dockerSystem ctx).Config) (i : ℕ) (party : DockerParty)
    (ev : Event DockerSig) : Prop := Undisturbed c c.world i party ev

/-- The outcome that is returned is the one of the execution's own program. -/
def OwnOutcome (c : (dockerSystem ctx).Config) : (dockerSystem ctx).Label → (dockerSystem ctx).Config → Prop
  | .act i party ⟨.respond (.ok outcome), _, _, _⟩, _ =>
    outcome = ownOutcome ctx party (CaptureWorld.own c.world i) outcome.durationMs
  | _, _ => True

/-- What an execution knows is so. -/
structure Grasp.Borne (g : Grasp) (w : CaptureWorld) (i : ℕ) : Prop where
  own : w.own i = g.own
  files : ∀ path content, g.files path = some content → w.window i = true ∧ w.files.content path = content
  fds : ∀ path content, g.files path = some (some content) →
    ∃ n, w.files.names path = some n ∧ w.fds i path = some (n, content.length)

theorem borne_nothing (hown : w.own i = g.own) (hnone : ∀ path, g.files path = none) : g.Borne w i where
  own := hown
  files path _ h := by rw [hnone path] at h; cases h
  fds path _ h := by rw [hnone path] at h; cases h

theorem borne_redirect {path : Capture} (hv : g.Borne w i) : (g.opened path).Borne (w.redirect i path) i := by
  obtain ⟨n, hname, hempty⟩ := FileTable.openTrunc_self w.files path
  have hfd : (w.redirect i path).fds i = Function.update (w.fds i) path (some (n, 0)) := by
    show Function.update w.fds i (Function.update (w.fds i) path (((w.files.openTrunc path).names path).map fun n => (n, 0))) i = _
    rw [Function.update_self, hname]
    rfl
  have hwindow : (w.redirect i path).window i = true := Function.update_self ..
  refine ⟨hv.own, fun q content h => ⟨hwindow, ?_⟩, fun q content h => ?_⟩
  · by_cases hq : q = path
    · subst hq
      rw [g.files_opened] at h
      cases h
      exact hempty
    · replace h : Function.update g.files path (some (some [])) q = some content := h
      rw [Function.update_of_ne hq] at h
      exact (FileTable.openTrunc_other w.files hq).2.trans (hv.files q content h).2
  · by_cases hq : q = path
    · subst hq
      rw [g.files_opened] at h
      cases h
      exact ⟨n, hname, by rw [hfd, Function.update_self]; rfl⟩
    · replace h : Function.update g.files path (some (some [])) q = some (some content) := h
      rw [Function.update_of_ne hq] at h
      obtain ⟨m, hm, hfdm⟩ := hv.fds q content h
      refine ⟨m, (FileTable.openTrunc_other w.files hq).1.trans hm, ?_⟩
      rw [hfd, Function.update_of_ne hq]
      exact hfdm

theorem borne_write {path : Capture} {bytes old : Bytes} (hv : g.Borne w i) (hopen : g.files path = some (some old)) :
    (g.wrote path bytes).Borne (w.write i path bytes) i := by
  obtain ⟨n, hname, hfd⟩ := hv.fds path old hopen
  obtain ⟨hwindow, hold⟩ := hv.files path (some old) hopen
  have hfiles : (w.write i path bytes).files = w.files.writeAt n old.length bytes := by
    unfold CaptureWorld.write
    rw [hfd]
    rfl
  have hfds : (w.write i path bytes).fds i = Function.update (w.fds i) path (some (n, old.length + bytes.length)) := by
    unfold CaptureWorld.write
    rw [hfd]
    exact Function.update_self ..
  have hown : (w.write i path bytes).own i = (w.own i).append path bytes := Function.update_self ..
  refine ⟨?_, fun q content h => ⟨hwindow, ?_⟩, fun q content h => ?_⟩
  · rw [hown, hv.own]
    rfl
  · rw [hfiles]
    by_cases hq : q = path
    · subst hq
      rw [Grasp.files_wrote hopen] at h
      cases h
      exact FileTable.writeAt_end hname hold
    · replace h : Function.update g.files path _ q = some content := h
      rw [Function.update_of_ne hq] at h
      exact (FileTable.writeAt_other hname hq).trans (hv.files q content h).2
  · rw [hfiles, hfds]
    by_cases hq : q = path
    · subst hq
      rw [Grasp.files_wrote hopen] at h
      cases h
      exact ⟨n, hname, by rw [Function.update_self, List.length_append]⟩
    · replace h : Function.update g.files path _ q = some (some content) := h
      rw [Function.update_of_ne hq] at h
      rw [Function.update_of_ne hq]
      exact hv.fds q content h

theorem relied_of_undisturbed {ev : Event DockerSig} {c : (dockerSystem ctx).Config} (hv : g.Borne w i)
    (hall : w.Allowed ev) (hφ : Undisturbed c w i party ev) : ReadsOwn party g ev := by
  obtain ⟨op, out, took, hk⟩ := ev
  cases op with
  | redirect path =>
    rcases out with e | u
    · exact hall
    · trivial
  | spawn _ => exact hφ
  | write path bytes => exact hφ.2
  | isFile path =>
    rcases out with e | found
    · trivial
    · intro content h
      have hfound : found = (w.files.content path).isSome := hall
      rw [hfound, (hv.files path content h).2]
  | head path limit =>
    rcases out with e | bytes
    · trivial
    · intro content h
      exact hall content (hv.files path _ h).2
  | _ => trivial

theorem borne_apply {ev : Event DockerSig} {c : (dockerSystem ctx).Config} (hv : g.Borne w i)
    (hpre : Returns ctx party g ev.op) (hall : w.Allowed ev) (hφ : Undisturbed c w i party ev) :
    (graspStep g ev).Borne (w.apply i ev) i := by
  obtain ⟨op, out, took, hk⟩ := ev
  have hclosed : g.closed.Borne (w.close i) i := borne_nothing hv.own fun _ => rfl
  cases op with
  | chdir workdir =>
    rcases out with e | found
    · exact hv
    · have hown : (w.chdir i found).own i = { ran := found } := Function.update_self ..
      cases found with
      | true =>
        refine borne_nothing hown fun path => ?_
        cases path <;> rfl
      | false =>
        refine ⟨hown, fun path content h => ⟨Function.update_self .., ?_⟩, fun path content h => ?_⟩
        · cases path with
          | out =>
            obtain rfl : none = content := Option.some.inj h
            exact hφ
          | _ => cases h
        · cases path <;> cases h
  | redirect path =>
    rcases out with e | u
    · exact absurd hall id
    · exact borne_redirect hv
  | write path bytes =>
    obtain ⟨old, hopen⟩ := hpre
    cases took with
    | true => exact borne_write hv hopen
    | false => exact hv
  | isFile path =>
    rcases out with e | found
    · cases path <;> exact hv
    · cases path with
      | timeout =>
        cases found with
        | true => exact hv
        | false => exact hclosed
      | _ => exact hv
  | head path limit =>
    rcases out with e | bytes
    · cases path <;> exact hv
    · cases path with
      | timeout => exact hclosed
      | _ => exact hv
  | remove path =>
    cases took with
    | true => exact borne_nothing hv.own hpre
    | false => exact hv
  | respond answer => exact hclosed
  | _ => exact hv

theorem borne_congr {w' : CaptureWorld} (hv : g.Borne w j) (hown : w'.own j = w.own j) (hwindow : w'.window j = w.window j)
    (hfds : w'.fds j = w.fds j) (hfiles : w'.files = w.files) : g.Borne w' j where
  own := hown.trans hv.own
  files path content h := by
    rw [hwindow, hfiles]
    exact hv.files path content h
  fds path content h := by
    rw [hfds, hfiles]
    exact hv.fds path content h

/-- Outside its window an execution knows nothing of the captures. -/
theorem borne_apart {w' : CaptureWorld} (hv : g.Borne w j) (hown : w'.own j = w.own j) (hwindow : w.window j = false) :
    g.Borne w' j := by
  refine borne_nothing (hown.trans hv.own) fun path => ?_
  rcases h : g.files path with _ | content
  · rfl
  · have hopen := (hv.files path content h).1
    rw [hwindow] at hopen
    cases hopen

theorem borne_other {ev : Event DockerSig} {c : (dockerSystem ctx).Config} (hji : j ≠ i)
    (hj : (c.threads j).isSome = true) (hv : g.Borne w j) (hφ : Undisturbed c w i party ev) : g.Borne (w.apply i ev) j := by
  have hother : ∀ {α : Type} (f : ℕ → α) (a : α), Function.update f i a j = f j := fun f a => Function.update_of_ne hji a f
  have hclose : g.Borne (w.close i) j := borne_congr hv rfl (hother _ _) rfl rfl
  obtain ⟨op, out, took, hk⟩ := ev
  cases op with
  | chdir workdir =>
    rcases out with e | found
    · exact hv
    · exact borne_congr hv (hother _ _) (hother _ _) rfl rfl
  | redirect path =>
    rcases out with e | u
    · exact hv
    · exact borne_apart hv rfl (hφ j hji hj)
  | write path bytes =>
    cases took with
    | true => exact borne_apart hv (hother _ _) (hφ.1 j hji hj)
    | false => exact hv
  | isFile path =>
    rcases out with e | found
    · cases path <;> exact hv
    · cases path with
      | timeout =>
        cases found with
        | true => exact hv
        | false => exact hclose
      | _ => exact hv
  | head path limit =>
    rcases out with e | bytes
    · cases path <;> exact hv
    · cases path with
      | timeout => exact hclose
      | _ => exact hv
  | remove path =>
    cases took with
    | true => exact borne_apart hv rfl (hφ j hji hj)
    | false => exact hv
  | respond answer => exact hclose
  | _ => exact hv

theorem captures_watched : (dockerSystem ctx).Watched (captureMonitor ctx) {} (fun _ => True) (fun w i _ g => g.Borne w i)
    (UndisturbedAt ctx) where
  start := by
    rintro w w' i party p - ⟨rfl, rfl⟩
    refine ⟨trivial, ⟨borne_nothing (Function.update_self ..) fun _ => rfl, thread_returns⟩, fun j party' g hji hv => ?_⟩
    exact borne_congr hv (Function.update_of_ne hji _ _) (Function.update_of_ne hji _ _) (Function.update_of_ne hji _ _) rfl
  act := by
    intro c i party ev g _ hv hpre hall hφ
    exact ⟨trivial, relied_of_undisturbed hv hall hφ, borne_apply hv hpre hall hφ⟩
  other := by
    intro c i party ev g _ _ _ _ hφ j party' g' q hji hj hv'
    have hrunning : (c.threads j).isSome = true := by
      rw [hj]
      rfl
    exact borne_other hji hrunning hv' hφ

/-- **Own outcome**: along every run in which nobody touches the captures in another's window, and 137 is only the status
of a program that ran out of time, every outcome that is returned is that of the execution's own program. -/
theorem own_outcome {c : (dockerSystem ctx).Config} {tr : List ((dockerSystem ctx).Label × (dockerSystem ctx).Config)}
    (hc : DockerStart c) (hs : (dockerSystem ctx).Steps c tr) (hφ : Along (ActOnly (UndisturbedAt ctx)) c tr) :
    Along OwnOutcome c tr := by
  have hP := preserved_of_watched (@captures_watched ctx)
  refine along_of_preserved hP (fun c l c' hI hst hl => ?_) (watched_start hc trivial) hs hφ
  cases hst with
  | start _ _ => trivial
  | exit => trivial
  | @act i party op k hrun out took h hall =>
    obtain ⟨g, hv, hpre⟩ := watched_call hI hrun
    cases op with
    | respond answer =>
      rcases answer with e | outcome
      · trivial
      · show outcome = ownOutcome ctx party (CaptureWorld.own c.world i) outcome.durationMs
        rw [hv.own]
        exact hpre
    | _ => trivial

end Runs

/-! ## Two executions -/

section Concrete

/-- Bytes that are ASCII, as text. -/
def sampleDocker : DockerContext where
  decode bytes := String.ofList (bytes.map fun b => Char.ofNat b.toNat)
  uvArgv _ := .ok ["uv", "sync"]

abbrev sampleContainer : Sys DockerSig := dockerSystem sampleDocker

/-- Every call answers. -/
def dockerReply (w : CaptureWorld) : (op : DockerOp) → Except WorkError op.Ans
  | .reload => .ok "running"
  | .uuid4 => .ok "0"
  | .elapsedMs => .ok (5 : ℤ)
  | .isFile path => .ok (w.files.content path).isSome
  | .head path limit => .ok (((w.files.content path).getD []).take limit)
  | .chdir _ => .ok true
  | .getContainer _ | .putArchive _ _ | .execStart | .execWait | .remove _ | .redirect _ | .spawn _ | .write _ _
  | .respond _ => .ok ()

def dockerDriver : sampleContainer.Driver where
  reply := dockerReply
  check w _ _ ev := @decide _ (CaptureWorld.decidableAllowed w ev)
  sound h := @of_decide_eq_true _ (CaptureWorld.decidableAllowed _ _) h

def startExecution (party : DockerParty) (i : ℕ) : sampleContainer.Starter i where
  start w := some (party, party.thread sampleDocker, CaptureWorld.enter w i)
  sound h := by
    cases h
    exact ⟨rfl, rfl⟩

def dockerTurns (i : ℕ) : ℕ → List sampleContainer.Move
  | 0 => []
  | n + 1 => .go i :: dockerTurns i n

/-- The first `n` steps of an execution. -/
def beginExecution (party : DockerParty) (i n : ℕ) : List sampleContainer.Move :=
  .start i (startExecution party i) :: dockerTurns i n

def emptyContainer : sampleContainer.Config := ⟨({} : CaptureWorld), fun _ => none⟩

def dockerRun (moves : List sampleContainer.Move) : List (sampleContainer.Label × sampleContainer.Config) :=
  Sys.drive dockerDriver emptyContainer moves

/-- An execution of a command, whose program writes the text and exits with the status. -/
def commandParty (text : String) (status : Fin 256) : DockerParty where
  providerRef := "container-1"
  req := { mode := .command, source := "main", timeoutSeconds := 10, maxOutputBytes := 100 }
  program :=
    { writes := [(.out, utf8 text)]
      status := status
      standard := by
        intro path bytes h
        rw [List.mem_singleton] at h
        cases h
        exact .inl rfl
      status_of_killed := fun h => (by cases h) }

/-- One execution after the other. -/
def inTurn : List (sampleContainer.Label × sampleContainer.Config) :=
  dockerRun (beginExecution (commandParty "A" 0) 0 27 ++ beginExecution (commandParty "B" 1) 1 27)

/-- The second script runs before the first execution reads. -/
def atOnce : List (sampleContainer.Label × sampleContainer.Config) :=
  dockerRun (beginExecution (commandParty "A" 0) 0 13 ++ beginExecution (commandParty "B" 1) 1 13 ++ dockerTurns 0 14)

/-- A program that exits with 137. -/
def exitsLikeKilled : List (sampleContainer.Label × sampleContainer.Config) :=
  dockerRun (beginExecution (commandParty "A" 137) 0 27)

instance decidableOwnOutcome (c : sampleContainer.Config) (l : sampleContainer.Label) (c' : sampleContainer.Config) :
    Decidable (OwnOutcome c l c') := by
  unfold OwnOutcome
  split <;> infer_instance

/-- The threads below 2 are apart. -/
def UndisturbedBelow (c : sampleContainer.Config) (i : ℕ) (party : DockerParty) : Event DockerSig → Prop
  | ⟨.chdir _, .ok false, _, _⟩ => (CaptureWorld.files c.world).content .out = none
  | ⟨.redirect _, _, _, _⟩ => ∀ j < 2, j ≠ i → CaptureWorld.window c.world j = false
  | ⟨.spawn _, _, _, _⟩ => party.program.status = 137 → party.program.killed = true
  | ⟨.write path _, _, took, _⟩ =>
    (∀ j < 2, j ≠ i → CaptureWorld.window c.world j = false) ∧ (path = .code ∨ path = .timeout → took = true)
  | ⟨.remove _, _, _, _⟩ => ∀ j < 2, j ≠ i → CaptureWorld.window c.world j = false
  | _ => True

instance decidableUndisturbedBelow (c : sampleContainer.Config) (i : ℕ) (party : DockerParty) (ev : Event DockerSig) :
    Decidable (UndisturbedBelow c i party ev) := by
  unfold UndisturbedBelow
  split <;> infer_instance

theorem undisturbed_of_below {c : sampleContainer.Config} (hthreads : ∀ j, 2 ≤ j → c.threads j = none)
    {ev : Event DockerSig} (h : UndisturbedBelow c i party ev) : Undisturbed c c.world i party ev := by
  have hapart : (∀ j < 2, j ≠ i → CaptureWorld.window c.world j = false) → Apart c c.world i := by
    intro hbelow j hji hj
    by_cases hlt : j < 2
    · exact hbelow j hlt hji
    · rw [hthreads j (by omega)] at hj
      cases hj
  unfold Undisturbed
  split
  · exact h
  · exact hapart h
  · exact h
  · exact ⟨hapart h.1, h.2⟩
  · exact hapart h
  · trivial

theorem own_outcome_inTurn : Along OwnOutcome emptyContainer inTurn := by
  have hsteps : sampleContainer.Steps emptyContainer inTurn := steps_drive dockerDriver _ _
  have hbelow : Along (fun _ l _ => Sys.Label.thread l < 2) emptyContainer inTurn :=
    @of_decide_eq_true _ (@decidableAlong _ _ _ (fun _ l _ => Nat.decLt (Sys.Label.thread l) 2) _ _) (by decide +kernel)
  have hundisturbed : Along (ActOnly UndisturbedBelow) emptyContainer inTurn :=
    @of_decide_eq_true _ (@decidableAlong _ _ _ (@decidableActOnly _ _ _ decidableUndisturbedBelow) _ _) (by decide +kernel)
  refine own_outcome (fun _ => rfl) hsteps ?_
  have hthreads := along_threads_below (fun j _ => rfl) hsteps hbelow
  refine along_mono (fun c l c' h => ?_) (along_and.2 ⟨hthreads, hundisturbed⟩)
  cases l with
  | act i party ev => exact undisturbed_of_below h.1 h.2
  | _ => trivial

/-- An outcome carries what the other program wrote; and a program's own exit status is taken for a timeout. -/
theorem outcomes_mixed : DockerStart emptyContainer ∧ ∀ tr ∈ [atOnce, exitsLikeKilled],
    sampleContainer.Steps emptyContainer tr ∧ ¬ Along OwnOutcome emptyContainer tr := by
  have hbroken : ∀ tr ∈ [atOnce, exitsLikeKilled], ¬ Along OwnOutcome emptyContainer tr := by
    simp only [List.forall_mem_cons, List.not_mem_nil, false_imp_iff, implies_true, and_true]
    refine ⟨?_, ?_⟩
    · exact @of_decide_eq_true _ (@instDecidableNot _ (@decidableAlong _ _ _ decidableOwnOutcome _ _)) (by decide +kernel)
    · exact @of_decide_eq_true _ (@instDecidableNot _ (@decidableAlong _ _ _ decidableOwnOutcome _ _)) (by decide +kernel)
  refine ⟨fun _ => rfl, fun tr htr => ?_⟩
  have hsteps : sampleContainer.Steps emptyContainer tr := by
    simp only [List.mem_cons, List.not_mem_nil, or_false] at htr
    rcases htr with rfl | rfl <;> exact steps_drive dockerDriver _ _
  exact ⟨hsteps, hbroken tr htr⟩

end Concrete

end Transform.Workspaces
