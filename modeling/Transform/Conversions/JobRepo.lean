import Mathlib.Algebra.Ring.Int.Defs
import Mathlib.Data.List.Basic
import Transform.Conversions.Job

/-!
# Conversions.JobRepo — the `conversion_jobs` table

`SQLConversionJobRepository` over the rows of the table.  `update` is the one UPDATE statement of the repository:
it writes every mutable column from the entity it is given, the grouping columns among them, and leaves the
identity of the row (`updated_jobId`, `updated_userId`).
-/

namespace Transform.Conversions

/-- The rows of `conversion_jobs`, oldest insert first. -/
abbrev JobRows := List ConversionJob

/-- A row after `UPDATE conversion_jobs SET …` from `job`. -/
def ConversionJob.updated (row job : ConversionJob) : ConversionJob :=
  { row with
    status := job.status
    objectKey := job.objectKey
    outputFile := job.outputFile
    errorMessage := job.errorMessage
    computeDurationMs := job.computeDurationMs
    creditsUsed := job.creditsUsed
    inputSizeBytes := job.inputSizeBytes
    outputSizeBytes := job.outputSizeBytes
    progress := job.progress
    dataKeyWrapped := job.dataKeyWrapped
    clientEncrypted := job.clientEncrypted
    batchId := job.batchId
    workflowId := job.workflowId }

namespace JobRows

def insert (rows : JobRows) (row : ConversionJob) : JobRows := rows ++ [row]

def update (rows : JobRows) (job : ConversionJob) : JobRows :=
  rows.map fun row => if row.jobId = job.jobId then row.updated job else row

def get (rows : JobRows) (jobId : String) : Option ConversionJob := rows.find? (·.jobId = jobId)

/-- The jobs of a batch that belong to `userId`, oldest first. -/
def listByBatch (rows : JobRows) (batchId : String) (userId : ℤ) : List ConversionJob :=
  (rows.filter fun row => row.batchId = some batchId ∧ row.userId = some userId).mergeSort
    fun a b => a.createdAt.getD 0 ≤ b.createdAt.getD 0

/-- Total credits consumed across all of a user's jobs. -/
def sumCreditsUsed (rows : JobRows) (userId : ℤ) : ℤ :=
  ((rows.filter (·.userId = some userId)).map (·.creditsUsed)).sum

end JobRows

section Rows

variable {rows : JobRows} {row job : ConversionJob} {jobId : String}

/-! ## What an UPDATE leaves of a row -/

@[simp] theorem updated_jobId : (row.updated job).jobId = row.jobId := rfl

@[simp] theorem updated_userId : (row.updated job).userId = row.userId := rfl

@[simp] theorem updated_status : (row.updated job).status = job.status := rfl

@[simp] theorem updated_batchId : (row.updated job).batchId = job.batchId := rfl

@[simp] theorem updated_workflowId : (row.updated job).workflowId = job.workflowId := rfl

/-! ## Reading back -/

theorem get_update : (rows.update job).get jobId =
    if jobId = job.jobId then (rows.get jobId).map (·.updated job) else rows.get jobId := by
  unfold JobRows.update JobRows.get
  rw [List.find?_map]
  have hp : ((fun row : ConversionJob => decide (row.jobId = jobId)) ∘ fun row =>
      if row.jobId = job.jobId then row.updated job else row) = fun row => decide (row.jobId = jobId) := by
    funext row
    simp only [Function.comp]
    split_ifs <;> rfl
  rw [hp]
  rcases hf : rows.find? fun row => decide (row.jobId = jobId) with _ | row
  · rw [hf]
    simp
  · have hid : row.jobId = jobId := by simpa using List.find?_some hf
    rw [hf]
    split_ifs with h <;> simp [hid, h]

@[simp] theorem get_update_userId :
    ((rows.update job).get jobId).map (·.userId) = (rows.get jobId).map (·.userId) := by
  rw [get_update]
  split_ifs
  · rw [Option.map_map]
    rfl
  · rfl

theorem get_insert : (rows.insert row).get jobId =
    (rows.get jobId).or (if row.jobId = jobId then some row else none) := by
  unfold JobRows.insert JobRows.get
  rw [List.find?_append]
  by_cases h : row.jobId = jobId <;> simp [h]

theorem get_update_of_ne (h : job.jobId ≠ jobId) : (rows.update job).get jobId = rows.get jobId := by
  rw [get_update, if_neg (Ne.symm h)]

theorem get_insert_of_ne (h : row.jobId ≠ jobId) : (rows.insert row).get jobId = rows.get jobId := by
  rw [get_insert, if_neg h, Option.or_none]

theorem get_some (h : rows.get jobId = some row) : row ∈ rows ∧ row.jobId = jobId := by
  unfold JobRows.get at h
  exact ⟨List.mem_of_find?_eq_some h, by simpa using List.find?_some h⟩

theorem mem_listByBatch {batchId : String} {userId : ℤ} :
    row ∈ rows.listByBatch batchId userId ↔
      row ∈ rows ∧ row.batchId = some batchId ∧ row.userId = some userId := by
  unfold JobRows.listByBatch
  rw [List.mem_mergeSort, List.mem_filter, decide_eq_true_iff]

end Rows

end Transform.Conversions
