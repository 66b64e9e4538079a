import Transform.Lib.Interleave
import Transform.Conversions.JobRepo
import Transform.Conversions.Service
import Transform.Worker.Settlement

/-!
# Conversions.JobWorld — the state the API and the workers share

The `conversion_jobs` table and the job streams, with what has happened to them on the side: the ids issued, and
the stamps and worker writes that took effect.  Requests and workers are threads over this world; nothing here
decides which of them run.
-/

namespace Transform.Conversions

open Lib Billing Worker

/-- Who runs: a batch request, a finalize request, or a worker with the job it was delivered. -/
inductive Actor
  | createBatch (userId : ℤ)
  | verify (userId : ℤ)
  | worker (job : ConversionJob)

/-- The grouping columns a batch request wrote on a row. -/
structure Stamp where
  jobId : String
  batchId : String
  workflowId : Option String
  owner : ℤ
  deriving DecidableEq

structure JobWorld where
  rows : JobRows
  published : List Fields
  /-- ids of `uuid4`, each with the thread that drew it -/
  issued : List (String × ℕ) := []
  /-- stamps that took effect -/
  stamps : List Stamp := []
  /-- jobs a worker's UPDATE has reached -/
  workerWrote : List String := []

namespace JobWorld

/-- An UPDATE with `job` took effect. -/
def write (w : JobWorld) (actor : Actor) (job : ConversionJob) : JobWorld :=
  let w' := { w with rows := w.rows.update job }
  match actor with
  | .createBatch userId =>
    match job.batchId with
    | some batchId => { w' with stamps := ⟨job.jobId, batchId, job.workflowId, userId⟩ :: w.stamps }
    | none => w'
  | .worker _ => if (w.rows.get job.jobId).isSome then { w' with workerWrote := job.jobId :: w.workerWrote } else w'
  | .verify _ => w'

/-- What an exchange does to the shared state. -/
def apply (w : JobWorld) (i : ℕ) (actor : Actor) : Event JobSig → JobWorld
  | ⟨.uuid4, .ok id, _, _⟩ => { w with issued := (id, i) :: w.issued }
  | ⟨.insertJob row, _, took, _⟩ => if took then { w with rows := w.rows.insert row } else w
  | ⟨.updateJob job, _, took, _⟩ => if took then w.write actor job else w
  | ⟨.publishJob _ message, _, took, _⟩ => if took then { w with published := message :: w.published } else w
  | _ => w

/-- An id that nothing refers to. -/
def Fresh (w : JobWorld) (id : String) : Prop :=
  id ≠ "" ∧ w.rows.get id = none ∧ id ∉ w.issued.map Prod.fst ∧ ∀ m ∈ w.published, m.lookup "job_id" ≠ some id

instance (w : JobWorld) (id : String) : Decidable (w.Fresh id) := by
  unfold Fresh
  infer_instance

/-- The outcomes the world allows: `uuid4` draws a fresh id, a row is read as it stands, ids are a primary key. -/
def Allowed (w : JobWorld) : Event JobSig → Prop
  | ⟨.uuid4, .ok id, _, _⟩ => w.Fresh id
  | ⟨.getJob jobId, .ok row, _, _⟩ => row = w.rows.get jobId
  | ⟨.insertJob row, _, took, _⟩ => took → w.rows.get row.jobId = none
  | _ => True

instance decidableAllowed (w : JobWorld) (ev : Event JobSig) : Decidable (w.Allowed ev) := by
  unfold Allowed
  split <;> infer_instance

end JobWorld

/-- The UPDATE an exchange made, if it took effect. -/
def updateOf : Event JobSig → Option ConversionJob
  | ⟨.updateJob job, _, true, _⟩ => some job
  | _ => none

/-! ## For concrete runs -/

/-- Calls answered as by `answering`, with the rows as they stand. -/
def JobWorld.reply (w : JobWorld) : (op : JobOp) → Except PyError op.Ans
  | .getJob jobId => .ok (w.rows.get jobId)
  | op => .ok (answering op)

/-- An API with one conversion registered. -/
def wiredService : ServiceContext := ⟨[pdfToDocx], true, ""⟩

end Transform.Conversions
