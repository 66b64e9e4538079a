import Transform.Conversions.JobWorld

/-!
# Conversions.BatchRequest — what a batch request may ask, and does

`createBatch` draws an id per item, inserts the row, moves it to PENDING, publishes it, and only then stamps the
grouping columns.  `batchMonitor` follows the job a request is building (`Draft`) through these stages;
`createBatch_spec` shows that no request strays from them, whatever its calls answer or raise.
-/

namespace Transform.Conversions

open Lib Billing Worker

section Request

/-- The job a batch request is building: whether its row is in and whether its message may be out. -/
structure Draft where
  jobId : String
  saved : Bool
  published : Bool

/-- How an exchange moves the draft; the stamp ends it. -/
def draftStep (g : Option Draft) : Event JobSig → Option Draft
  | ⟨.uuid4, .ok id, _, _⟩ => some ⟨id, false, false⟩
  | ⟨.insertJob _, _, took, _⟩ => g.map fun d => { d with saved := took }
  | ⟨.publishJob _ _, _, _, _⟩ => g.map fun d => { d with published := true }
  | ⟨.updateJob job, _, _, _⟩ => if job.batchId.isSome then none else g
  | _ => g

/-- What a batch request of `userId` may ask. -/
def BatchPermitted (userId : ℤ) (g : Option Draft) : JobOp → Prop
  | .uuid4 => True
  | .utcNow => True
  | .insertJob row => g = some ⟨row.jobId, false, false⟩ ∧ row.userId = some userId
  | .updateJob job => ∃ published, g = some ⟨job.jobId, true, published⟩ ∧ job.status = .pending ∧
      (job.batchId = none → published = false)
  | .publishJob _ message => ∃ d, g = some d ∧ message.lookup "job_id" = some d.jobId
  | _ => False

def batchMonitor (userId : ℤ) : Monitor JobSig (Option Draft) where
  pre := BatchPermitted userId
  rely _ _ := True
  step := draftStep

variable {ctx : ServiceContext} {userId : ℤ} {g : Option Draft} {α : Type}

theorem createConversionJob_spec {job : ConversionJob} (hu : job.userId = some userId) :
    wpe (batchMonitor userId) (createConversionJob ctx job)
      (fun job' g => g = some ⟨job'.jobId, true, false⟩ ∧ job' = { job with jobId := job'.jobId })
      (fun _ _ => True) g := by
  unfold createConversionJob saveConversionJob
  rw [wpe_bind]
  refine wpe_ofExcept (fun _ _ => ?_) fun _ _ => trivial
  rw [wpe_bind]
  refine wpe_ask.2 ⟨trivial, fun jobId _ => ?_, fun _ _ _ _ => trivial⟩
  rw [wpe_bind, wpe_bind]
  refine wpe_ask.2 ⟨trivial, fun now _ => ?_, fun _ _ _ _ => trivial⟩
  exact wpe_ask.2 ⟨⟨rfl, hu⟩, fun _ _ => ⟨rfl, rfl⟩, fun _ _ _ _ => trivial⟩

theorem publishJob_spec {job : ConversionJob} {tier : SubscriptionTier} {published : Bool} :
    wpe (batchMonitor userId) (publishJob ctx job tier) (fun _ g => g = some ⟨job.jobId, true, true⟩)
      (fun _ _ => True) (some ⟨job.jobId, true, published⟩) := by
  unfold publishJob
  rw [wpe_bind]
  refine wpe_ofExcept (fun message hm => ?_) fun _ _ => trivial
  have hid : message.toDict.lookup "job_id" = some job.jobId := by
    rw [lookup_toDict, fromConversionJob_ok hm]
  exact wpe_ask.2 ⟨⟨_, rfl, hid⟩, fun _ _ => rfl, fun _ _ _ _ => trivial⟩

theorem pushConversionJob_spec {job : ConversionJob} {tier : SubscriptionTier} (hs : job.status = .awaitingUpload)
    (hb : job.batchId = none) :
    wpe (batchMonitor userId) (pushConversionJob ctx job tier)
      (fun job' g => g = some ⟨job'.jobId, true, true⟩ ∧ job'.status = .pending)
      (fun _ _ => True) (some ⟨job.jobId, true, false⟩) := by
  unfold pushConversionJob
  split_ifs
  · trivial
  rw [wpe_bind]
  refine wpe_ofExcept (fun _ _ => ?_) fun _ _ => trivial
  unfold leaveAwaitingUpload
  rw [if_pos hs, wpe_bind, wpe_bind]
  refine wpe_ofExcept (fun job' hjob' => ?_) fun _ _ => trivial
  obtain ⟨-, rfl⟩ := pendingProcessing_ok hjob'
  rw [wpe_bind]
  refine wpe_ask.2 ⟨⟨false, rfl, rfl, fun _ => rfl⟩, fun _ _ => ?_, fun _ _ _ _ => trivial⟩
  have hstep : (batchMonitor userId).step (some ⟨job.jobId, true, false⟩)
      (.done (.updateJob { job with status := .pending }) (.ok ())) = some ⟨job.jobId, true, false⟩ := by
    simp [batchMonitor, Event.done, draftStep, hb]
  rw [hstep, wpe_pure, wpe_bind]
  exact wpe_mono publishJob_spec (fun _ g hg => ⟨hg, rfl⟩) fun _ _ h => h

theorem convertLibraryFile_spec {fileName sourceFormat targetFormat objectKey : String} {tier : SubscriptionTier}
    {origin : JobOrigin} :
    wpe (batchMonitor userId)
      (convertLibraryFile ctx fileName sourceFormat targetFormat objectKey userId tier origin)
      (fun job g => g = some ⟨job.jobId, true, true⟩ ∧ job.status = .pending) (fun _ _ => True) g := by
  unfold convertLibraryFile
  rw [wpe_bind]
  refine wpe_mono (createConversionJob_spec rfl) ?_ fun _ _ h => h
  rintro job g ⟨rfl, hjob⟩
  rw [hjob]
  exact pushConversionJob_spec rfl rfl

theorem createBatchItem_spec {req : BatchRequest} {batchId : String} {item : BatchItemRequest} :
    wpe (batchMonitor req.userId) (createBatchItem ctx req batchId item) (fun _ _ => True) (fun _ _ => True) g := by
  unfold createBatchItem
  rw [wpe_bind, wpe_tryCatch, wpe_bind]
  refine wpe_mono convertLibraryFile_spec ?_ fun _ _ _ => trivial
  rintro job g ⟨rfl, hs⟩
  rw [wpe_pure]
  dsimp only
  rw [wpe_bind]
  exact wpe_ask.2 ⟨⟨true, rfl, hs, fun h => by cases h⟩, fun _ _ => trivial, fun _ _ _ _ => trivial⟩

theorem createBatchItems_spec {req : BatchRequest} {batchId : String} : ∀ {items : List BatchItemRequest}
    {g : Option Draft}, wpe (batchMonitor req.userId) (createBatchItems ctx req batchId items) (fun _ _ => True)
      (fun _ _ => True) g
  | [], _ => trivial
  | _ :: _, _ => by
    unfold createBatchItems
    rw [wpe_bind]
    refine wpe_mono createBatchItem_spec (fun _ g _ => ?_) fun _ _ h => h
    rw [wpe_bind]
    exact wpe_mono createBatchItems_spec (fun _ _ _ => trivial) fun _ _ h => h

/-- **A batch request keeps to its drafts**: one id per job, one insert, PENDING before the message is out, and the
stamp last. -/
theorem createBatch_spec {req : BatchRequest} :
    wpe (batchMonitor req.userId) (createBatch ctx req) (fun _ _ => True) (fun _ _ => True) g := by
  unfold createBatch
  rw [wpe_bind]
  have hid : wpe (batchMonitor req.userId) (effectiveBatchId req) (fun _ _ => True) (fun _ _ => True) g := by
    unfold effectiveBatchId
    rcases truthy req.batchId with _ | batchId
    · exact wpe_ask.2 ⟨trivial, fun _ _ => trivial, fun _ _ _ _ => trivial⟩
    · trivial
  refine wpe_mono hid (fun batchId g _ => ?_) fun _ _ h => h
  rw [wpe_bind]
  exact wpe_mono createBatchItems_spec (fun _ _ _ => trivial) fun _ _ h => h

end Request

end Transform.Conversions
