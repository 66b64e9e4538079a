import Transform.Conversions.JobWorld

/-!
# Conversions.VerifyRequest — what a finalize call asks of its job

`verifyUploadSession` works on the upload session first.  Then it reads the row of the waiting job, points it at
the uploaded object, moves it to PENDING if it was AWAITING_UPLOAD when read, and publishes it.  `View` follows a
call through these stages; `verifyUploadSession_spec` shows that no call strays from them.
-/

namespace Transform.Conversions

open Lib Billing Worker

section Request

/-- How far a finalize call is with its job, with the status it read. -/
inductive View
  | fresh
  | read (status : JobStatus)
  | pointed (status : JobStatus)
  | left
  | ended

/-- An UPDATE of the call returned. -/
def View.written : View → View
  | .read status => .pointed status
  | .pointed _ => .left
  | _ => .ended

/-- How an exchange moves the call; an exception of the row's calls ends it. -/
def viewStep (g : View) : Event JobSig → View
  | ⟨.getJob _, .ok (some row), _, _⟩ => .read row.status
  | ⟨.getJob _, _, _, _⟩ => .ended
  | ⟨.updateJob _, .ok _, _, _⟩ => g.written
  | ⟨.updateJob _, .error _, _, _⟩ => .ended
  | ⟨.publishJob _ _, _, _, _⟩ => .ended
  | _ => g

/-- What a finalize call that names `jobId` may ask. -/
def VerifyPermitted (jobId : Option String) (g : View) : JobOp → Prop
  | .getJob id => jobId = some id
  | .updateJob job => jobId = some job.jobId ∧
      (g = .read job.status ∨ g = .pointed .awaitingUpload ∧ job.status = .pending)
  | .publishJob _ message => ∃ id, jobId = some id ∧ message.lookup "job_id" = some id ∧
      (g = .left ∨ ∃ status, g = .pointed status ∧ status ≠ .awaitingUpload)
  | .uploads _ => True
  | _ => False

def KeyedRead : Event JobSig → Prop
  | ⟨.getJob id, .ok (some row), _, _⟩ => row.jobId = id
  | _ => True

def verifyMonitor (jobId : Option String) : Monitor JobSig View where
  pre := VerifyPermitted jobId
  rely _ := KeyedRead
  step := viewStep

/-! ## The upload session -/

/-- The calls on the upload sessions and the library. -/
def Uploading : JobOp → Prop
  | .uploads _ => True
  | _ => False

def MultipartPending (session : UploadSession) : Prop := session.uploadMode = "multipart" ∧ session.multipartUploadId ≠ none

instance (session : UploadSession) : Decidable (MultipartPending session) :=
  inferInstanceAs (Decidable (session.uploadMode = "multipart" ∧ session.multipartUploadId ≠ none))

theorem completeMultipart_pending {session : UploadSession} {parts : List (ℕ × String)} {multipartId : String}
    (hmode : session.uploadMode = "multipart") (hid : session.multipartUploadId = some multipartId) :
    verifyUploadCompletion.completeMultipart parts session =
      if parts = [] then .throw ⟨.missingUploadParts, "A multipart upload must be finalized with its part list."⟩
      else do
        call (.uploads (.completeMultipartUpload session.objectKey multipartId (parts.mergeSort fun a b => a.1 ≤ b.1)))
        return { session with multipartUploadId := none } := by
  unfold verifyUploadCompletion.completeMultipart
  split
  · rename_i id _ hid'
    obtain rfl := Option.some.inj (hid'.symm.trans hid)
    rfl
  · rename_i hnot
    exact absurd hid (hnot multipartId hmode)

theorem completeMultipart_settled {session : UploadSession} {parts : List (ℕ × String)} (h : ¬ MultipartPending session) :
    verifyUploadCompletion.completeMultipart parts session = pure session := by
  unfold verifyUploadCompletion.completeMultipart
  split
  · rename_i hmode hid
    exact absurd ⟨hmode, by rw [hid]; exact Option.some_ne_none _⟩ h
  · rfl

theorem uploads_only (op : UploadOp) : (call (.uploads op)).Only Uploading := only_ask trivial

theorem verifyUploadCompletion_only (uploadId : String) (parts : List (ℕ × String)) :
    (verifyUploadCompletion uploadId parts).Only Uploading := by
  unfold verifyUploadCompletion
  refine only_bind (uploads_only _) fun session? => ?_
  rcases session? with _ | session
  · exact only_throw
  · refine only_bind ?_ fun session => only_bind (uploads_only _) fun found => ?_
    · unfold verifyUploadCompletion.completeMultipart
      split
      · split_ifs
        · exact only_throw
        · exact only_bind (uploads_only _) fun _ => only_pure
      · exact only_pure
    · split_ifs
      · exact only_bind (uploads_only _) fun _ => only_pure
      · exact only_throw

variable {ctx : ServiceContext} {jobId : Option String} {g : View}

theorem wpe_uploading {α : Type} {p : Py α} (hp : p.Only Uploading) {Q : α → View → Prop}
    {E : PyError → View → Prop} (hQ : ∀ a, Q a g) (hE : ∀ e, E e g) : wpe (verifyMonitor jobId) p Q E g := by
  refine wpe_of_only hp (fun op h => ?_) (fun ev h => ?_) hQ hE
  · cases op <;> first | exact h.elim | trivial
  · obtain ⟨op, out, took, hk⟩ := ev
    cases op <;> first | exact h.elim | rfl

/-! ## The job -/

theorem publishJob_verify {job : ConversionJob} {tier : SubscriptionTier} (hid : jobId = some job.jobId)
    (hg : g = .left ∨ ∃ status, g = .pointed status ∧ status ≠ .awaitingUpload) :
    wpe (verifyMonitor jobId) (publishJob ctx job tier) (fun _ _ => True) (fun _ _ => True) g := by
  unfold publishJob
  rw [wpe_bind]
  refine wpe_ofExcept (fun message hm => ?_) fun _ _ => trivial
  have hlookup : message.toDict.lookup "job_id" = some job.jobId := by
    rw [lookup_toDict, fromConversionJob_ok hm]
  exact wpe_ask.2 ⟨⟨job.jobId, hid, hlookup, hg⟩, fun _ _ => trivial, fun _ _ _ _ => trivial⟩

theorem pushConversionJob_verify {job : ConversionJob} {tier : SubscriptionTier} (hid : jobId = some job.jobId) :
    wpe (verifyMonitor jobId) (pushConversionJob ctx job tier) (fun _ _ => True) (fun _ _ => True)
      (.pointed job.status) := by
  unfold pushConversionJob
  split_ifs
  · trivial
  rw [wpe_bind]
  refine wpe_ofExcept (fun _ _ => ?_) fun _ _ => trivial
  rw [wpe_bind]
  unfold leaveAwaitingUpload
  by_cases hs : job.status = .awaitingUpload
  · rw [if_pos hs, wpe_bind]
    refine wpe_ofExcept (fun job' hjob' => ?_) fun _ _ => trivial
    obtain ⟨-, rfl⟩ := pendingProcessing_ok hjob'
    rw [wpe_bind]
    refine wpe_ask.2 ⟨⟨hid, .inr ⟨by rw [hs], rfl⟩⟩, fun _ _ => ?_, fun _ _ _ _ => trivial⟩
    rw [wpe_pure, wpe_bind]
    exact wpe_mono (publishJob_verify hid (.inl rfl)) (fun _ _ _ => trivial) fun _ _ h => h
  · rw [if_neg hs, wpe_pure, wpe_bind]
    exact wpe_mono (publishJob_verify hid (.inr ⟨_, rfl, hs⟩)) (fun _ _ _ => trivial) fun _ _ h => h

theorem pushUploadedJob_verify {userId : ℤ} {session : UploadSession} {id : String} (hid : jobId = some id) :
    wpe (verifyMonitor jobId) (pushUploadedJob ctx userId session id) (fun _ _ => True) (fun _ _ => True) g := by
  unfold pushUploadedJob
  rw [wpe_bind]
  refine wpe_ask.2 ⟨hid, fun row hrow => ?_, fun _ _ _ _ => trivial⟩
  rcases row with _ | job
  · trivial
  dsimp only
  split_ifs
  · obtain rfl : job.jobId = id := hrow
    rw [wpe_bind]
    refine wpe_ask.2 ⟨⟨hid, .inl rfl⟩, fun _ _ => ?_, fun _ _ _ _ => trivial⟩
    rw [wpe_bind]
    exact wpe_mono (@pushConversionJob_verify ctx jobId { job with objectKey := session.objectKey } .free hid)
      (fun _ _ _ => trivial) fun _ _ h => h
  · trivial

/-- **A finalize call keeps to its job**: one read, the re-pointing UPDATE, the PENDING transition of a job read
AWAITING_UPLOAD, one publish. -/
theorem verifyUploadSession_spec {req : VerifyRequest} :
    wpe (verifyMonitor req.jobId) (verifyUploadSession ctx req) (fun _ _ => True) (fun _ _ => True) g := by
  unfold verifyUploadSession finalizeUpload
  rw [wpe_mapError, wpe_bind]
  refine wpe_uploading (verifyUploadCompletion_only _ _) (fun session => ?_) fun _ => trivial
  split_ifs
  · trivial
  rw [wpe_bind]
  refine wpe_uploading (uploads_only _) (fun fileId => ?_) fun _ => trivial
  rcases hid : req.jobId with _ | id
  · trivial
  dsimp only
  rw [wpe_bind]
  exact wpe_mono (pushUploadedJob_verify rfl) (fun _ _ _ => trivial) fun _ _ h => h

end Request

end Transform.Conversions
