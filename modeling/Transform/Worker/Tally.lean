import Transform.Worker.ProcessJob

/-!
# Worker.Tally — what a run of `process_job` did to the row and to the wallet

A run is judged by its exchanges with the ports.  `Tally` sums them up: what the row was last written with, what
the wallet was charged, which writes took effect and where the run was when they did.  `jobMonitor` adds what a
worker may ask at all: only rows of its own job, never PENDING, and at most one charge.
-/

namespace Transform.Worker

open Lib Billing Conversions

/-- The effects of the exchanges of one run. -/
structure Tally where
  /-- what the last write that took effect wrote -/
  row : Option ConversionJob := none
  /-- units of the charges that returned -/
  charged : ℤ := 0
  consumed : Bool := false
  /-- a charge was asked, whatever came of it -/
  asked : Bool := false
  /-- the guard read a finished row -/
  finished : Bool := false
  completedWrite : Bool := false
  failedWrite : Bool := false
  /-- publishing a COMPLETED event raised -/
  announceLost : Bool := false
  /-- the price is recorded: the uploading event was sent -/
  priced : Bool := false
  pricedWrite : Bool := false
  pricedFailedWrite : Bool := false

namespace Tally

/-- An UPDATE of the row with `job` took effect. -/
def write (g : Tally) (job : ConversionJob) : Tally :=
  { g with
    row := some job
    completedWrite := g.completedWrite || job.status = .completed
    failedWrite := g.failedWrite || job.status = .failed
    pricedWrite := g.pricedWrite || g.priced
    pricedFailedWrite := g.pricedFailedWrite || (g.priced && job.status = .failed) }

/-- An event was sent; `ok` if publishing it returned. -/
def announce (g : Tally) (event : JobEvent) (ok : Bool) : Tally :=
  { g with
    announceLost := g.announceLost || (event.status = .completed && !ok)
    priced := g.priced || (event.status = .processing && event.progress = 75) }

/-- The effect of one exchange. -/
def step (g : Tally) : Event JobSig → Tally
  | ⟨.updateJob job, _, took, _⟩ => if took then g.write job else g
  | ⟨.publishEvent event, out, _, _⟩ => g.announce event out.isOk
  | ⟨.consume _ _ units _, .ok _, _, _⟩ => { g with asked := true, consumed := true, charged := g.charged + units }
  | ⟨.consume _ _ _ _, .error _, _, _⟩ => { g with asked := true }
  | ⟨.getJob _, .ok row, _, _⟩ => { g with finished := (row.filter isFinished).isSome }
  | _ => g

end Tally

/-- The tally of a run. -/
def tally (tr : List (Event JobSig)) : Tally := tr.foldl Tally.step {}

/-- What a worker that was delivered `job` may ask. -/
def Permitted (job : ConversionJob) (g : Tally) : JobOp → Prop
  | .updateJob row => row.jobId = job.jobId ∧ row.batchId = job.batchId ∧ row.workflowId = job.workflowId ∧
      (row.status = .processing ∨ row.status = .completed ∨ row.status = .failed) ∧ g.finished = false
  | .getJob jobId => jobId = job.jobId ∧ g.finished = false
  | .consume userId _ units _ => job.userId = some userId ∧ 0 < units ∧ g.asked = false ∧ g.finished = false
  | .publishEvent _ => True
  | .getAvailableTotal _ _ => True
  | .getTier _ => True
  | .file _ => True
  | _ => False

/-- The tally of a run that asks only what a worker may. -/
def jobMonitor (job : ConversionJob) : Monitor JobSig Tally where
  pre := Permitted job
  rely _ _ := True
  step := Tally.step

/-! ## Calls the tally does not see -/

section Unseen

/-- File work and the reads of the credit port. -/
def Quiet : JobOp → Prop
  | .getAvailableTotal _ _ => True
  | .getTier _ => True
  | .file _ => True
  | _ => False

variable {job : ConversionJob} {g : Tally} {α : Type}

theorem permitted_of_quiet {op : JobOp} (h : Quiet op) : Permitted job g op := by
  cases op <;> first | exact h.elim | trivial

theorem step_of_quiet {ev : Event JobSig} (h : Quiet ev.op) : Tally.step g ev = g := by
  obtain ⟨op, out, took, hk⟩ := ev
  cases op <;> first | exact h.elim | rfl

theorem wpe_quiet {p : Py α} (hp : p.Only Quiet) {Q : α → Tally → Prop} {E : PyError → Tally → Prop}
    (hQ : ∀ a, Q a g) (hE : ∀ e, E e g) : wpe (jobMonitor job) p Q E g :=
  wpe_of_only hp (fun _ h => permitted_of_quiet h) (fun _ h => step_of_quiet h) hQ hE

theorem attempts_only {φ : JobOp → Prop} {p : Py α} (hp : p.Only φ) : ∀ n, (attempts p n).Only φ
  | 0 => hp
  | n + 1 => only_tryCatch hp fun _ => attempts_only hp n

theorem retryOnException_only {φ : JobOp → Prop} {p : Py α} {n : ℕ} (hp : p.Only φ) :
    (retryOnException p n).Only φ :=
  attempts_only hp _

theorem file_only (op : FileOp) : (call (.file op)).Only Quiet := only_ask trivial

theorem getAvailableTotal_only (userId : ℤ) (periodKey : String) :
    (call (.getAvailableTotal userId periodKey)).Only Quiet := only_ask trivial

theorem getTier_only (userId : ℤ) : (call (.getTier userId)).Only Quiet := only_ask trivial

variable (ctx : WorkerContext)

theorem decryptInput_only (path : WorkPath) : (decryptInput job path).Only Quiet := by
  unfold decryptInput
  refine only_bind ?_ fun fencr => ?_
  · unfold isFencr
    split_ifs
    · exact file_only _
    · exact only_pure
  · split_ifs
    · unfold decryptFencr
      rcases truthy job.dataKeyWrapped with _ | wrapped
      · exact only_throw
      · exact only_bind (file_only _) fun _ => only_bind (file_only _) fun _ => only_pure
    · refine only_bind (file_only _) fun encrypted => ?_
      split_ifs
      · exact only_bind (file_only _) fun _ => only_pure
      · exact only_pure

theorem downloadInputFile_only (path : WorkPath) : (downloadInputFile ctx job path).Only Quiet := by
  unfold downloadInputFile
  refine retryOnException_only (only_bind (file_only _) fun _ => ?_)
  split_ifs
  · exact decryptInput_only path
  · exact only_pure

theorem resolveOutputPath_only (location : String) (conversion : ConversionType) (path : WorkPath) :
    (resolveOutputPath ctx location conversion path).Only Quiet := by
  unfold resolveOutputPath converterOutputExtension
  refine only_bind ?_ fun _ => only_pure
  split_ifs
  · rcases ctx.declaredExtension conversion with _ | ext | _
    · exact only_pure
    · exact only_pure
    · exact only_bind (file_only _) fun _ => only_pure
  · exact only_pure

theorem convertFile_only (input output : WorkPath) : (convertFile ctx job input output).Only Quiet := by
  unfold convertFile
  refine retryOnException_only ?_
  split_ifs
  · refine only_bind (file_only _) fun _ => only_bind (file_only _) fun written => ?_
    split_ifs
    · exact only_pure
    · exact only_throw
  · exact only_throw

theorem uploadOutputFile_only (output : WorkPath) : (uploadOutputFile ctx job output).Only Quiet := by
  unfold uploadOutputFile
  refine retryOnException_only ?_
  split_ifs
  · exact only_bind (file_only _) fun _ => only_bind (file_only _) fun _ => only_pure
  · exact only_bind (file_only _) fun _ => only_pure

theorem measureFileSizes_only (input output : WorkPath) : (measureFileSizes input output).Only Quiet := by
  have measured : ∀ path, (measure path).Only Quiet := fun path =>
    only_tryCatch (file_only _) fun _ => only_pure
  exact only_bind (measured input) fun _ => only_bind (measured output) fun _ => only_pure

end Unseen

end Transform.Worker
