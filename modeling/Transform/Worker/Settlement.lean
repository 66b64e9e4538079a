import Transform.Conversions.JobRepo
import Transform.Worker.Outcome

/-!
# Worker.Settlement — the row and the wallet agree, or exactly when they do not

What a run of `process_job` leaves on the row, against what it took from the wallet, whatever its ports raised.
-/

namespace Transform.Worker

open Lib Billing Conversions

/-! ## Ports for concrete runs -/

section Ports

/-- Ports that answer everything, on a machine where the conversion takes a second. -/
def answering : (op : JobOp) → op.Ans
  | .uuid4 => "job-1"
  | .utcNow => 0
  | .insertJob _ => ()
  | .updateJob _ => ()
  | .getJob _ => none
  | .publishJob _ _ => ()
  | .publishEvent _ => ()
  | .getAvailableTotal _ _ => some 100
  | .getTier _ => .free
  | .consume _ _ units _ => 100 - units
  | .file (.download _ _) => ()
  | .file (.upload _ _) => ()
  | .file (.isFencrFile _) => false
  | .file (.decryptKey _ _) => ""
  | .file (.decryptFencrFile _ _ _) => ()
  | .file (.isEncryptedFile _) => false
  | .file (.decryptFileTo _ _ _) => ()
  | .file (.encryptFileTo _ _ _) => ()
  | .file (.outputExtension _ _) => none
  | .file (.convert _ _ _) => (1000 : ℕ)
  | .file (.hasOutput _) => true
  | .file (.fileSize _) => (10 : ℕ)
  | .uploads (.getSession uploadId) => some { uploadId, objectKey := "up/a.pdf", userId := some "7" }
  | .uploads (.setSession _) => ()
  | .uploads (.completeMultipartUpload _ _ _) => ()
  | .uploads (.objectExists _) => true
  | .uploads (.completeUpload _ _) => "file-1"

/-- The same ports where every call that `down` names raises. -/
def portsDown (down : JobOp → Bool) : Env JobSig Unit where
  reply _ op := if down op then .error ⟨.other, "port down"⟩ else .ok (answering op)
  effect _ _ := ()

def pdfToDocx : ConversionType := ⟨"pdf", "docx"⟩

/-- A worker with every port wired and one converter, at two credits a conversion. -/
def wiredContext : WorkerContext where
  jobRepository := true
  encryptionService := false
  creditPort := true
  converters := [pdfToDocx]
  declaredExtension _ := .undeclared
  baseTargetKey := "outputs"
  price _ _ _ := 2

/-- The job a worker makes of the stream entry of user 7's upload. -/
def deliveredJob : ConversionJob where
  jobId := "job-1"
  conversion := pdfToDocx
  inputFile := "a.pdf"
  outputFile := some ""
  objectKey := "up/a.pdf"
  status := .pending
  userId := some 7

/-- That entry. -/
def deliveredMessage : ConversionJobMessage where
  jobId := "job-1"
  sourceFormat := "pdf"
  targetFormat := "docx"
  inputKey := "a.pdf"
  objectKey := "up/a.pdf"
  userId := some "7"

theorem buildJob_delivered : buildJob deliveredMessage.toDict = .ok deliveredJob :=
  @buildJob_toDict deliveredJob deliveredMessage rfl

/-- The exchanges of a worker that is delivered the job while the ports `down` names raise. -/
def runDown (down : JobOp → Bool) : List (Event JobSig) :=
  ((processJob wiredContext "2026-07" deliveredJob).run.play (portsDown down) ()).1

/-- The event that announces a finished job. -/
def isCompletedEvent : JobOp → Bool
  | .publishEvent event => event.status = .completed
  | _ => false

end Ports

/-! ## Runs -/

section Runs

variable {ctx : WorkerContext} {periodKey : String} {job : ConversionJob} {tr : List (Event JobSig)}
  {r : Except PyError Unit}

/-- Whatever the ports do, a run leaves `Final`. -/
theorem final_of_run (hr : Run (processJob ctx periodKey job).run tr r) : Final job.creditsUsed (tally tr) :=
  wp_observe_run (Q := fun _ g => Final job.creditsUsed g) (wp_observe (fun _ _ => trivial) processJob_spec) hr

/-- **A charged job and its row**: once the charge returned, the row ends COMPLETED exactly if a write of the
COMPLETED row took effect and the outer handler did not overwrite it, which takes a COMPLETED event whose publishing
raised and a write of the FAILED row that took effect. -/
theorem charged_job_completed_iff (hr : Run (processJob ctx periodKey job).run tr r)
    (hc : (tally tr).consumed = true) :
    (tally tr).row.map (·.status) = some .completed ↔
      (tally tr).completedWrite ∧ ¬((tally tr).announceLost ∧ (tally tr).failedWrite) :=
  (final_of_run hr).completed_iff hc

theorem charged_job_completed_all_ports_up :
    (tally (runDown fun _ => false)).row.map (·.status) = some .completed :=
  (charged_job_completed_iff (run_play (portsDown fun _ => false) _ ()) rfl).2 ⟨rfl, by decide⟩

/-- A charged job whose COMPLETED event is lost ends FAILED. -/
theorem charged_job_failed_by_lost_event :
    ¬ ∀ (ctx : WorkerContext) (periodKey : String) (job : ConversionJob) (tr : List (Event JobSig))
      (r : Except PyError Unit), job.userId.isSome → Run (processJob ctx periodKey job).run tr r →
      (tally tr).consumed = true → (tally tr).row.map (·.status) = some .completed := by
  intro h
  have hrow : (tally (runDown isCompletedEvent)).row.map (·.status) = some .completed :=
    h wiredContext "2026-07" deliveredJob _ _ rfl (run_play (portsDown isCompletedEvent) _ ()) rfl
  have hfailed : (tally (runDown isCompletedEvent)).row.map (·.status) = some .failed := rfl
  rw [hfailed] at hrow
  cases hrow

end Runs

/-! ## Recorded and charged credits -/

section Credits

/-- One delivery of a job, with the row it found. -/
structure JobRun where
  ctx : WorkerContext
  periodKey : String
  fields : Fields
  job : ConversionJob
  built : buildJob fields = .ok job
  exchanges : List (Event JobSig)
  result : Except PyError Unit
  ran : Run (processJob ctx periodKey job).run exchanges result
  stored : ConversionJob
  unpriced : stored.creditsUsed = 0

def JobRun.tally (run : JobRun) : Tally := Worker.tally run.exchanges

def JobRun.row (run : JobRun) : ConversionJob :=
  match run.tally.row with
  | none => run.stored
  | some job => run.stored.updated job

theorem final_of_jobRun (run : JobRun) : Final 0 run.tally := by
  have h := final_of_run run.ran
  rw [(buildJob_ok run.built).2.1] at h
  exact h

theorem honest_iff_settled (run : JobRun) : run.tally.Honest ↔ run.tally.Settled :=
  (final_of_jobRun run).honest_iff rfl

theorem row_creditsUsed_le (run : JobRun) (h : run.tally.Settled) : run.row.creditsUsed ≤ run.tally.charged := by
  unfold JobRun.row
  rcases hrow : run.tally.row with _ | job
  · have h0 := run.unpriced
    have hpos := (final_of_jobRun run).charged_nonneg
    simp only
    omega
  · exact ((honest_iff_settled run).2 h job hrow).2

theorem row_userId (run : JobRun) : run.row.userId = run.stored.userId := by
  unfold JobRun.row
  rcases run.tally.row with _ | job <;> rfl

theorem sumCreditsUsed_le (userId : ℤ) : ∀ runs : List JobRun, (∀ run ∈ runs, run.tally.Settled) →
    JobRows.sumCreditsUsed (runs.map (·.row)) userId ≤
      ((runs.filter (·.stored.userId = some userId)).map (·.tally.charged)).sum := by
  intro runs h
  unfold JobRows.sumCreditsUsed
  induction runs with
  | nil => simp
  | cons run runs ih =>
    have ih := ih fun r hr => h r (by simp [hr])
    have hle := row_creditsUsed_le run (h run (by simp))
    rw [List.map_cons, List.filter_cons, List.filter_cons, row_userId]
    split_ifs
    · simp only [List.map_cons, List.sum_cons]
      omega
    · exact ih

/-- **Recorded credits**: the row of a run is honest exactly if no write took effect after the price was recorded,
or the charge returned and no FAILED row was written after it; over settled runs a user's recorded credits are
bounded by what the wallet was charged. -/
theorem credits_used_eq_charged_iff (run : JobRun) :
    (run.tally.Honest ↔ run.tally.Settled) ∧ ∀ runs : List JobRun, (∀ run ∈ runs, run.tally.Settled) → ∀ userId : ℤ,
      JobRows.sumCreditsUsed (runs.map (·.row)) userId ≤
        ((runs.filter (·.stored.userId = some userId)).map (·.tally.charged)).sum :=
  ⟨honest_iff_settled run, fun runs h userId => sumCreditsUsed_le userId runs h⟩

/-- The upload of the output to object storage. -/
def isUpload : JobOp → Bool
  | .file (.upload _ _) => true
  | _ => false

/-- A conversion whose output cannot be uploaded. -/
def lostUpload : JobRun where
  ctx := wiredContext
  periodKey := "2026-07"
  fields := deliveredMessage.toDict
  job := deliveredJob
  built := buildJob_delivered
  exchanges := runDown isUpload
  result := _
  ran := run_play (portsDown isUpload) _ ()
  stored := { deliveredJob with outputFile := none }
  unpriced := rfl

/-- A job whose upload fails is FAILED with its price on the row and nothing charged. -/
theorem failed_job_priced_by_lost_upload :
    ¬ ∀ run : JobRun, ∀ row ∈ run.tally.row, row.status = .completed ∨ row.status = .failed →
      row.creditsUsed = run.tally.charged ∧ (row.status = .failed → row.creditsUsed = 0) := by
  intro h
  obtain ⟨row, hrow, hs, hc⟩ : ∃ row, lostUpload.tally.row = some row ∧ row.status = .failed ∧ row.creditsUsed = 2 :=
    ⟨_, rfl, rfl, rfl⟩
  have h0 := (h lostUpload row hrow (.inr hs)).2 hs
  omega

end Credits

end Transform.Worker
