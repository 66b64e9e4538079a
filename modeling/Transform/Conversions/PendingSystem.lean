import Transform.Conversions.JobWorld

/-!
# Conversions.PendingSystem — a PENDING row and its message

Any number of create, push, library, retry and batch requests, interleaved call by call, with any call raising.
Pushing and retrying commit the move to PENDING first and publish after it, so a job can be left PENDING with no
message.  `pendingMonitor` follows a request through the two calls (`Phase`).

* `pending_queued_iff`: every PENDING row has a message queued, or a request whose next call publishes one, and a
  publish that fails leaves the status the request found, exactly if no publish fails after the request's own move
  to PENDING and nothing else cuts the two calls apart.
-/

namespace Transform.Conversions

open Lib Billing

/-! ## The system -/

/-- A call of the conversion service. -/
inductive Request
  | create (job : ConversionJob)
  | push (job : ConversionJob) (tier : SubscriptionTier)
  | library (fileName sourceFormat targetFormat objectKey : String) (userId : ℤ) (tier : SubscriptionTier)
      (origin : JobOrigin)
  | retry (jobId : String) (userId : Option ℤ) (tier : SubscriptionTier)
  | batch (req : BatchRequest)

def Request.program (ctx : ServiceContext) : Request → Proc JobSig Unit
  | .create job => thread (createConversionJob ctx job)
  | .push job tier => thread (pushConversionJob ctx job tier)
  | .library fileName sourceFormat targetFormat objectKey userId tier origin =>
    thread (convertLibraryFile ctx fileName sourceFormat targetFormat objectKey userId tier origin)
  | .retry jobId userId tier => thread (retryConversionJob ctx jobId userId tier)
  | .batch req => thread (createBatch ctx req)

/-- The table, the messages in the job streams and their pending lists, and for each thread the job it last wrote
with the status it found there. -/
structure QueueWorld where
  rows : JobRows
  queued : List Fields
  found : ℕ → Option (String × JobStatus) := fun _ => none

namespace QueueWorld

/-- A message for the job is in a stream or a pending list. -/
def Queued (w : QueueWorld) (id : String) : Prop := ∃ m ∈ w.queued, m.lookup "job_id" = some id

def Pending (w : QueueWorld) (id : String) : Prop := (w.rows.get id).map (·.status) = some .pending

/-- What an exchange does. -/
def apply (w : QueueWorld) (i : ℕ) : Event JobSig → QueueWorld
  | ⟨.insertJob row, _, true, _⟩ => { w with rows := w.rows.insert row }
  | ⟨.updateJob job, _, true, _⟩ =>
    { w with
      rows := w.rows.update job
      found := Function.update w.found i ((w.rows.get job.jobId).map fun row => (job.jobId, row.status)) }
  | ⟨.publishJob _ message, _, true, _⟩ => { w with queued := message :: w.queued }
  | _ => w

/-- A row is read as it stands, and ids are a primary key. -/
def Allowed (w : QueueWorld) : Event JobSig → Prop
  | ⟨.getJob jobId, .ok row, _, _⟩ => row = w.rows.get jobId
  | ⟨.insertJob row, _, took, _⟩ => took → w.rows.get row.jobId = none
  | _ => True

abbrev Exchange := Event JobSig

instance decidableAllowed (w : QueueWorld) (ev : Exchange) : Decidable (w.Allowed ev) := by
  unfold Allowed
  split <;> infer_instance

end QueueWorld

/-- Requests over the table and the streams.  A job to create is as the routes build it, AWAITING_UPLOAD; a job to
push is any value, however stale. -/
def requestSystem (ctx : ServiceContext) : Sys JobSig where
  World := QueueWorld
  Tag := Request
  spawn w _ req p w' := w' = w ∧ p = req.program ctx ∧ ∀ job, req = .create job → job.status = .awaitingUpload
  Allowed w _ _ ev := w.Allowed ev
  apply w i _ ev := w.apply i ev

def announced : Proc JobSig Unit → Option String
  | .call (.publishJob _ message) _ => message.lookup "job_id"
  | _ => none

section Statements

variable {ctx : ServiceContext}

/-- The next call of thread `i` publishes a message for the job. -/
def Announces (c : (requestSystem ctx).Config) (i : ℕ) (id : String) : Prop :=
  ∃ req p, c.threads i = some (req, p) ∧ announced p = some id

/-- A message for the job is queued, or a request other than `i` is about to publish one. -/
def ElsewhereQueued (c : (requestSystem ctx).Config) (i : ℕ) (id : String) : Prop :=
  QueueWorld.Queued c.world id ∨ ∃ j, j ≠ i ∧ Announces c j id

/-- Every PENDING row has a message, or a request whose next call publishes one. -/
def PendingQueued (c : (requestSystem ctx).Config) : Prop :=
  ∀ id, QueueWorld.Pending c.world id → QueueWorld.Queued c.world id ∨ ∃ i, Announces c i id

/-- A publish that fails leaves the row in the status the request found it in. -/
def FailureRestores (c : (requestSystem ctx).Config) :
    (requestSystem ctx).Label → (requestSystem ctx).Config → Prop
  | .act i _ ⟨.publishJob _ message, _, false, _⟩, c' => ∀ id status, QueueWorld.found c.world i = some (id, status) →
      message.lookup "job_id" = some id → (JobRows.get c'.world.rows id).map (·.status) = some status
  | _, _ => True

/-- The commit of PENDING and the publish are not cut apart: no publish fails whose request has itself moved the row
to PENDING, or whose PENDING row has no other message; a request that ends before it publishes, and a commit that
raises or writes a job without an object key, leave no row PENDING that has no other message. -/
def PublishesKept (c : (requestSystem ctx).Config) :
    (requestSystem ctx).Label → (requestSystem ctx).Config → Prop
  | .act i _ ⟨.publishJob _ message, _, false, _⟩, _ => ∀ id, message.lookup "job_id" = some id →
      QueueWorld.Pending c.world id →
        (∀ status, QueueWorld.found c.world i = some (id, status) → status = .pending) ∧ ElsewhereQueued c i id
  | .act i _ ⟨.updateJob job, out, true, _⟩, _ => (JobRows.get c.world.rows job.jobId).isSome →
      (out.isOk ∧ job.objectKey ≠ "") ∨ ElsewhereQueued c i job.jobId
  | .exit i, _ => ∀ id, Announces c i id → QueueWorld.Pending c.world id → ElsewhereQueued c i id
  | _, _ => True

end Statements

/-! ## What a request asks -/

section Requests

/-- Where a request is with a job: nothing is due, its publish is due, its message is out. -/
inductive Phase
  | idle
  | due (id : String)
  | sent (id : String)
  deriving DecidableEq

/-- How an exchange moves the phase.  The UPDATE of a job whose message is out is the stamp of its batch. -/
def phaseStep (g : Phase) : Event JobSig → Phase
  | ⟨.updateJob job, out, _, _⟩ =>
    if g = .sent job.jobId then g else if out.isOk ∧ job.objectKey ≠ "" then .due job.jobId else .idle
  | ⟨.publishJob _ message, .ok _, _, _⟩ => (message.lookup "job_id").elim .idle .sent
  | ⟨.publishJob _ _, .error _, _, _⟩ => .idle
  | ⟨.uuid4, _, _, _⟩ => .idle
  | _ => g

/-- No publish is due. -/
def Phase.Free (g : Phase) : Prop := ∀ id, g ≠ .due id

@[simp] theorem free_idle : Phase.Free .idle := fun _ h => by cases h

@[simp] theorem free_sent {id : String} : Phase.Free (.sent id) := fun _ h => by cases h

/-- What a request may ask: an insert is not PENDING, an UPDATE is, and what is due is the one publish it makes. -/
def PendingPermitted (g : Phase) : JobOp → Prop
  | .publishJob _ message => ∃ id, g = .due id ∧ message.lookup "job_id" = some id
  | .insertJob row => g.Free ∧ row.status ≠ .pending
  | .updateJob job => g.Free ∧ job.status = .pending
  | .uuid4 => g.Free
  | .utcNow => g.Free
  | .getJob _ => g.Free
  | _ => False

def pendingMonitor : Monitor JobSig Phase where
  pre := PendingPermitted
  rely _ _ := True
  step := phaseStep

/-- The phase in which a job is about to be published: its publish is due, where a message of it can be built. -/
def readyPhase (job : ConversionJob) : Phase := if job.objectKey ≠ "" then .due job.jobId else .idle

variable {ctx : ServiceContext} {tier : SubscriptionTier} {job : ConversionJob} {g : Phase}

theorem publishJob_sends : wpe pendingMonitor (publishJob ctx job tier) (fun _ g => g = .sent job.jobId)
    (fun _ g => g.Free) (readyPhase job) := by
  unfold publishJob readyPhase
  rw [wpe_bind]
  refine wpe_ofExcept (fun message hm => ?_) fun e he => ?_
  · have hid : message.toDict.lookup "job_id" = some job.jobId := by
      rw [lookup_toDict, fromConversionJob_ok hm]
    have hk : job.objectKey ≠ "" := by
      intro hk
      rw [ConversionJobMessage.fromConversionJob, if_pos hk] at hm
      cases hm
    rw [if_pos hk]
    refine wpe_ask.2 ⟨⟨_, rfl, hid⟩, fun _ _ => ?_, fun _ _ _ _ => free_idle⟩
    show (message.toDict.lookup "job_id").elim Phase.idle .sent = _
    rw [hid]
    rfl
  · have hk : job.objectKey = "" := by
      by_contra hk
      rw [ConversionJobMessage.fromConversionJob, if_neg hk] at he
      cases he
    rw [if_neg (not_not.2 hk)]
    exact free_idle

theorem updateJob_readies (hs : job.status = .pending) : wpe pendingMonitor (call (.updateJob job))
    (fun _ g => g = readyPhase job) (fun _ g => g.Free) .idle := by
  refine wpe_ask.2 ⟨⟨free_idle, hs⟩, fun _ _ => ?_, fun _ _ _ _ => ?_⟩
  · simp [pendingMonitor, phaseStep, Event.done, readyPhase, Except.isOk, Except.toBool]
  · simp [pendingMonitor, phaseStep, Except.isOk, Except.toBool]

theorem createConversionJob_idles (hs : job.status = .awaitingUpload) (hg : g.Free) :
    wpe pendingMonitor (createConversionJob ctx job)
      (fun job' g => g = .idle ∧ job'.status = .awaitingUpload) (fun _ g => g.Free) g := by
  unfold createConversionJob saveConversionJob
  rw [wpe_bind]
  refine wpe_ofExcept (fun _ _ => ?_) fun _ _ => hg
  rw [wpe_bind]
  refine wpe_ask.2 ⟨hg, fun jobId _ => ?_, fun _ _ _ _ => free_idle⟩
  rw [wpe_bind, wpe_bind]
  refine wpe_ask.2 ⟨free_idle, fun now _ => ?_, fun _ _ _ _ => free_idle⟩
  refine wpe_ask.2 ⟨⟨free_idle, ?_⟩, fun _ _ => ⟨rfl, hs⟩, fun _ _ _ _ => free_idle⟩
  rw [hs]
  decide

theorem pushConversionJob_sends (hs : job.status = .awaitingUpload) :
    wpe pendingMonitor (pushConversionJob ctx job tier)
      (fun job' g => g = .sent job'.jobId ∧ job'.status = .pending) (fun _ g => g.Free) .idle := by
  unfold pushConversionJob
  split_ifs
  · exact free_idle
  rw [wpe_bind]
  refine wpe_ofExcept (fun _ _ => ?_) fun _ _ => free_idle
  unfold leaveAwaitingUpload
  rw [if_pos hs, wpe_bind, wpe_bind]
  refine wpe_ofExcept (fun job' hjob' => ?_) fun _ _ => free_idle
  obtain ⟨-, rfl⟩ := pendingProcessing_ok hjob'
  rw [wpe_bind]
  refine wpe_mono (updateJob_readies rfl) ?_ fun _ _ h => h
  rintro - g rfl
  rw [wpe_pure, wpe_bind]
  exact wpe_mono publishJob_sends (fun _ g hg => ⟨hg, rfl⟩) fun _ _ h => h

theorem pushConversionJob_phase (hs : job.status ≠ .awaitingUpload) : ∃ g, (∀ id, g ≠ .sent id) ∧
    wpe pendingMonitor (pushConversionJob ctx job tier) (fun _ g => g.Free) (fun _ g => g.Free) g := by
  unfold pushConversionJob leaveAwaitingUpload
  rw [if_neg hs]
  split_ifs with hid
  · exact ⟨.idle, fun _ h => (by cases h), free_idle⟩
  rcases hsup : isSupported job.conversion ctx.supported with e | u
  · exact ⟨.idle, fun _ h => (by cases h), by
      rw [wpe_bind, wpe_ofExcept_error]
      exact free_idle⟩
  · refine ⟨readyPhase job, fun id h => ?_, ?_⟩
    · unfold readyPhase at h
      split_ifs at h
    · simp only [wpe_bind, wpe_ofExcept_ok, wpe_pure]
      refine wpe_mono publishJob_sends ?_ fun _ _ h => h
      rintro - g rfl
      exact free_sent

theorem convertLibraryFile_sends {fileName sourceFormat targetFormat objectKey : String} {userId : ℤ}
    {origin : JobOrigin} (hg : g.Free) :
    wpe pendingMonitor (convertLibraryFile ctx fileName sourceFormat targetFormat objectKey userId tier origin)
      (fun job g => g = .sent job.jobId ∧ job.status = .pending) (fun _ g => g.Free) g := by
  unfold convertLibraryFile
  rw [wpe_bind]
  refine wpe_mono (createConversionJob_idles rfl hg) ?_ fun _ _ h => h
  rintro job g ⟨rfl, hs⟩
  exact pushConversionJob_sends hs

theorem retryConversionJob_sends {jobId : String} {userId : Option ℤ} :
    wpe pendingMonitor (retryConversionJob ctx jobId userId tier) (fun _ g => g.Free) (fun _ g => g.Free) .idle := by
  unfold retryConversionJob
  rw [wpe_bind]
  refine wpe_ask.2 ⟨free_idle, fun row _ => ?_, fun _ _ _ _ => free_idle⟩
  rcases row.filter fun job => isJobOwner (some job) userId with _ | job
  · exact free_idle
  · dsimp only
    rw [wpe_bind]
    refine wpe_ofExcept (fun job' hjob' => ?_) fun _ _ => free_idle
    rw [wpe_bind]
    refine wpe_mono (updateJob_readies (retry_ok hjob')) ?_ fun _ _ h => h
    rintro - g rfl
    rw [wpe_bind]
    refine wpe_mono publishJob_sends ?_ fun _ _ h => h
    rintro - g rfl
    exact free_sent

theorem createBatchItem_sends {req : BatchRequest} {batchId : String} {item : BatchItemRequest} (hg : g.Free) :
    wpe pendingMonitor (createBatchItem ctx req batchId item) (fun _ g => g.Free) (fun _ g => g.Free) g := by
  unfold createBatchItem
  rw [wpe_bind, wpe_tryCatch, wpe_bind]
  refine wpe_mono (convertLibraryFile_sends hg) ?_ fun _ _ h => h
  rintro job g ⟨rfl, hs⟩
  rw [wpe_pure]
  dsimp only
  rw [wpe_bind]
  -- the stamp: the message is out already
  refine wpe_ask.2 ⟨⟨free_sent, hs⟩, fun _ _ => ?_, fun _ _ _ _ => ?_⟩ <;>
    simp [pendingMonitor, phaseStep, Event.done]

theorem createBatchItems_sends {req : BatchRequest} {batchId : String} : ∀ {items : List BatchItemRequest}
    {g : Phase}, g.Free → wpe pendingMonitor (createBatchItems ctx req batchId items) (fun _ g => g.Free)
      (fun _ g => g.Free) g
  | [], _, hg => hg
  | _ :: _, _, hg => by
    unfold createBatchItems
    rw [wpe_bind]
    refine wpe_mono (createBatchItem_sends hg) (fun _ g hg => ?_) fun _ _ h => h
    rw [wpe_bind]
    exact wpe_mono (createBatchItems_sends hg) (fun _ _ h => h) fun _ _ h => h

theorem createBatch_sends {req : BatchRequest} :
    wpe pendingMonitor (createBatch ctx req) (fun _ g => g.Free) (fun _ g => g.Free) .idle := by
  unfold createBatch
  rw [wpe_bind]
  have hid : wpe pendingMonitor (effectiveBatchId req) (fun _ g => g.Free) (fun _ g => g.Free) .idle := by
    unfold effectiveBatchId
    rcases truthy req.batchId with _ | batchId
    · exact wpe_ask.2 ⟨free_idle, fun _ _ => free_idle, fun _ _ _ _ => free_idle⟩
    · exact free_idle
  refine wpe_mono hid (fun batchId g hg => ?_) fun _ _ h => h
  rw [wpe_bind]
  exact wpe_mono (createBatchItems_sends hg) (fun _ _ h => h) fun _ _ h => h

/-- **Every request keeps to its phases**: it starts with nothing out, publishes what is due next, and ends with
nothing due. -/
theorem request_phase {req : Request} (hreq : ∀ job, req = .create job → job.status = .awaitingUpload) :
    ∃ g, (∀ id, g ≠ .sent id) ∧ wp pendingMonitor (req.program ctx) (fun _ g => g.Free) g := by
  have idle : ∀ id, Phase.idle ≠ .sent id := fun _ h => by cases h
  cases req with
  | create job =>
    refine ⟨.idle, idle, wp_thread_of_wpe ?_⟩
    refine wpe_mono (createConversionJob_idles (hreq job rfl) free_idle) ?_ fun _ _ h => h
    rintro - g ⟨rfl, -⟩
    exact free_idle
  | push job tier =>
    by_cases hs : job.status = .awaitingUpload
    · refine ⟨.idle, idle, wp_thread_of_wpe ?_⟩
      refine wpe_mono (pushConversionJob_sends hs) ?_ fun _ _ h => h
      rintro job' g ⟨rfl, -⟩
      exact free_sent
    · obtain ⟨g, hg, h⟩ := @pushConversionJob_phase ctx tier job hs
      exact ⟨g, hg, wp_thread_of_wpe h⟩
  | library fileName sourceFormat targetFormat objectKey userId tier origin =>
    refine ⟨.idle, idle, wp_thread_of_wpe ?_⟩
    refine wpe_mono (convertLibraryFile_sends free_idle) ?_ fun _ _ h => h
    rintro job g ⟨rfl, -⟩
    exact free_sent
  | retry jobId userId tier => exact ⟨.idle, idle, wp_thread_of_wpe retryConversionJob_sends⟩
  | batch req => exact ⟨.idle, idle, wp_thread_of_wpe createBatch_sends⟩

end Requests

/-! ## The invariant -/

section Invariant

variable {ctx : ServiceContext} {w : QueueWorld} {i j : ℕ} {g : Phase} {id : String} {p : Proc JobSig Unit}

/-- The rows that requests have written are PENDING. -/
def FoundPending (w : QueueWorld) : Prop := ∀ i id status, w.found i = some (id, status) → w.Pending id

def PendingThread (w : QueueWorld) (_ : ℕ) (_ : Request) (p : Proc JobSig Unit) : Prop :=
  ∃ g, wp pendingMonitor p (fun _ g => g.Free) g ∧ ∀ id, g = .sent id → w.Queued id

/-- The next call of a request publishes exactly what is due. -/
theorem announced_iff (h : wp pendingMonitor p (fun _ g => g.Free) g) : announced p = some id ↔ g = .due id := by
  rcases p with u | ⟨op, k⟩
  · exact ⟨fun h' => (by cases h'), fun h' => absurd h' (h id)⟩
  have hpre : PendingPermitted g op := h.1
  cases op with
  | publishJob stream message =>
    obtain ⟨id', rfl, hid⟩ := hpre
    show message.lookup "job_id" = some id ↔ _
    rw [hid, Option.some_inj, Phase.due.injEq]
  | insertJob row => exact ⟨fun h' => (by cases h'), fun h' => absurd h' (hpre.1 id)⟩
  | updateJob job => exact ⟨fun h' => (by cases h'), fun h' => absurd h' (hpre.1 id)⟩
  | uuid4 => exact ⟨fun h' => (by cases h'), fun h' => absurd h' (hpre id)⟩
  | utcNow => exact ⟨fun h' => (by cases h'), fun h' => absurd h' (hpre id)⟩
  | getJob jobId => exact ⟨fun h' => (by cases h'), fun h' => absurd h' (hpre id)⟩
  | publishEvent event => exact hpre.elim
  | getAvailableTotal userId periodKey => exact hpre.elim
  | getTier userId => exact hpre.elim
  | consume userId periodKey units origin => exact hpre.elim
  | file op => exact hpre.elim
  | uploads op => exact hpre.elim

theorem queued_apply {ev : Event JobSig} (h : w.Queued id) : (w.apply i ev).Queued id := by
  obtain ⟨m, hm, hid⟩ := h
  unfold QueueWorld.apply
  split
  · exact ⟨m, hm, hid⟩
  · exact ⟨m, hm, hid⟩
  · exact ⟨m, List.mem_cons_of_mem _ hm, hid⟩
  · exact ⟨m, hm, hid⟩

/-- A row that the table has stays PENDING: no request writes anything else. -/
theorem pending_apply {op : JobOp} {out : Except PyError op.Ans} {took : Bool} {h : ∀ a, out = .ok a → took = true}
    (hpre : PendingPermitted g op) (hp : w.Pending id) : (w.apply i ⟨op, out, took, h⟩).Pending id := by
  obtain ⟨row, hrow, hs⟩ := Option.map_eq_some_iff.1 hp
  rcases took with _ | _
  · cases op <;> exact hp
  cases op with
  | insertJob new =>
    show ((w.rows.insert new).get id).map (·.status) = _
    rw [get_insert, hrow, Option.some_or, Option.map_some, hs]
  | updateJob job =>
    show ((w.rows.update job).get id).map (·.status) = _
    rw [get_update]
    split_ifs
    · rw [hrow, Option.map_some, Option.map_some, updated_status, hpre.2]
    · exact hp
  | uuid4 => exact hp
  | utcNow => exact hp
  | getJob jobId => exact hp
  | publishJob stream message => exact hp
  | publishEvent event => exact hpre.elim
  | getAvailableTotal userId periodKey => exact hpre.elim
  | getTier userId => exact hpre.elim
  | consume userId periodKey units origin => exact hpre.elim
  | file op => exact hpre.elim
  | uploads op => exact hpre.elim

theorem queued_of_sent {op : JobOp} {out : Except PyError op.Ans} {took : Bool} {h : ∀ a, out = .ok a → took = true}
    (hg : ∀ id, g = .sent id → w.Queued id) (hsent : phaseStep g ⟨op, out, took, h⟩ = .sent id) :
    (w.apply i ⟨op, out, took, h⟩).Queued id := by
  have keep : g = .sent id → (w.apply i ⟨op, out, took, h⟩).Queued id := fun hgid => queued_apply (hg id hgid)
  cases op with
  | publishJob stream message =>
    rcases out with e | u
    · cases hsent
    obtain rfl : took = true := h u rfl
    have hid : message.lookup "job_id" = some id := by
      rcases hm : message.lookup "job_id" with _ | id'
      · simp [phaseStep, hm] at hsent
      · simpa [phaseStep, hm] using hsent
    exact ⟨message, List.mem_cons_self .., hid⟩
  | updateJob job =>
    refine keep ?_
    simp only [phaseStep] at hsent
    split_ifs at hsent with hgid
    exact hsent
  | uuid4 => cases hsent
  | insertJob row => exact keep hsent
  | utcNow => exact keep hsent
  | getJob jobId => exact keep hsent
  | publishEvent event => exact keep hsent
  | getAvailableTotal userId periodKey => exact keep hsent
  | getTier userId => exact keep hsent
  | consume userId periodKey units origin => exact keep hsent
  | file op => exact keep hsent
  | uploads op => exact keep hsent

theorem foundPending_apply {op : JobOp} {out : Except PyError op.Ans} {took : Bool}
    {h : ∀ a, out = .ok a → took = true} (hpre : PendingPermitted g op) (hI : FoundPending w) :
    FoundPending (w.apply i ⟨op, out, took, h⟩) := by
  intro j id status hfound
  have keep : w.found j = some (id, status) → (w.apply i ⟨op, out, took, h⟩).Pending id := fun hf =>
    pending_apply hpre (hI j id status hf)
  rcases took with _ | _
  · cases op <;> exact keep hfound
  cases op with
  | updateJob job =>
    replace hfound : Function.update w.found i ((w.rows.get job.jobId).map fun row => (job.jobId, row.status)) j =
        some (id, status) := hfound
    by_cases hji : j = i
    · subst hji
      rw [Function.update_self] at hfound
      obtain ⟨row, hrow, heq⟩ := Option.map_eq_some_iff.1 hfound
      obtain rfl : job.jobId = id := congrArg Prod.fst heq
      show ((w.rows.update job).get job.jobId).map (·.status) = _
      rw [get_update, if_pos rfl, hrow, Option.map_some, Option.map_some, updated_status, hpre.2]
    · rw [Function.update_of_ne hji] at hfound
      exact keep hfound
  | _ => exact keep hfound

theorem pending_preserved : (requestSystem ctx).Preserved FoundPending PendingThread (fun _ _ _ _ => True) where
  start_world := by
    rintro w w' i req p hI ⟨rfl, -⟩
    exact hI
  start_thread := by
    rintro w w' i req p - ⟨rfl, rfl, hreq⟩
    obtain ⟨g, hg, hwp⟩ := request_phase hreq
    exact ⟨g, hwp, fun id h => absurd h (hg id)⟩
  start_other := by
    rintro w w' i req p - ⟨rfl, -⟩ j req' q - hT
    exact hT
  act_world := by
    rintro c i req op k out took h hI ⟨g, hwp, -⟩ - -
    exact foundPending_apply hwp.1 hI
  act_thread := by
    rintro c i req op k out took h - ⟨g, hwp, hg⟩ - -
    exact ⟨phaseStep g ⟨op, out, took, h⟩, hwp.2 out took h trivial, fun id => queued_of_sent hg⟩
  act_other := by
    rintro c i req op k out took h - - - - j req' q - - ⟨g, hwp, hg⟩
    exact ⟨g, hwp, fun id hid => queued_apply (hg id hid)⟩

theorem inv_of_request_step (c : (requestSystem ctx).Config) (l : (requestSystem ctx).Label)
    (c' : (requestSystem ctx).Config) (hI : (requestSystem ctx).Inv FoundPending PendingThread c)
    (hs : (requestSystem ctx).Step c l c') : (requestSystem ctx).Inv FoundPending PendingThread c' :=
  inv_step pending_preserved hI hs (by cases l <;> trivial)

end Invariant

/-! ## Runs -/

section Runs

variable {ctx : ServiceContext} {c c' : (requestSystem ctx).Config} {i j : ℕ} {req : Request} {id : String}
  {g : Phase} {op : JobOp} {k : Except PyError op.Ans → Proc JobSig Unit} {out : Except PyError op.Ans} {took : Bool}
  {h : ∀ a, out = .ok a → took = true}

/-- The configuration after an exchange of thread `i`. -/
def afterAct (c : (requestSystem ctx).Config) (i : ℕ) (req : Request) (op : JobOp)
    (k : Except PyError op.Ans → Proc JobSig Unit) (out : Except PyError op.Ans) (took : Bool)
    (h : ∀ a, out = .ok a → took = true) : (requestSystem ctx).Config :=
  ⟨QueueWorld.apply c.world i ⟨op, out, took, h⟩, Function.update c.threads i (some (req, k out))⟩

theorem announces_self (hrun : c.threads i = some (req, .call op k))
    (hwp : wp pendingMonitor (.call op k) (fun _ g => g.Free) g) : Announces c i id ↔ g = .due id := by
  rw [← announced_iff hwp]
  constructor
  · rintro ⟨req', p, hp, hid⟩
    rw [hrun] at hp
    cases hp
    exact hid
  · exact fun hid => ⟨req, _, hrun, hid⟩

theorem announces_other (hj : j ≠ i) :
    Announces (afterAct c i req op k out took h) j id ↔ Announces c j id := by
  unfold Announces afterAct
  simp only [Function.update_of_ne hj]

theorem pendingQueued_act (hwp : wp pendingMonitor (.call op k) (fun _ g => g.Free) g) :
    PendingQueued (afterAct c i req op k out took h) ↔
      ∀ id, (QueueWorld.apply c.world i ⟨op, out, took, h⟩).Pending id →
        (QueueWorld.apply c.world i ⟨op, out, took, h⟩).Queued id ∨ phaseStep g ⟨op, out, took, h⟩ = .due id ∨
          ∃ j, j ≠ i ∧ Announces c j id := by
  have hself : ∀ id, Announces (afterAct c i req op k out took h) i id ↔ phaseStep g ⟨op, out, took, h⟩ = .due id := by
    intro id
    have hnext : announced (k out) = some id ↔ phaseStep g ⟨op, out, took, h⟩ = .due id :=
      announced_iff (hwp.2 out took h trivial)
    rw [← hnext]
    constructor
    · rintro ⟨req', p, hp, hid⟩
      simp only [afterAct, Function.update_self, Option.some_inj] at hp
      cases hp
      exact hid
    · exact fun hid => ⟨req, _, by simp only [afterAct, Function.update_self], hid⟩
  refine forall_congr' fun id => imp_congr_right fun _ => or_congr_right ?_
  constructor
  · rintro ⟨j, hj⟩
    by_cases hji : j = i
    · subst hji
      exact .inl ((hself id).1 hj)
    · exact .inr ⟨j, hji, (announces_other hji).1 hj⟩
  · rintro (hdue | ⟨j, hji, hj⟩)
    · exact ⟨i, (hself id).2 hdue⟩
    · exact ⟨j, (announces_other hji).2 hj⟩

theorem covered_before (hrun : c.threads i = some (req, .call op k))
    (hwp : wp pendingMonitor (.call op k) (fun _ g => g.Free) g) (hk : PendingQueued c)
    (hp : QueueWorld.Pending c.world id) : g = .due id ∨ ElsewhereQueued c i id := by
  rcases hk id hp with hq | ⟨j, hj⟩
  · exact .inr (.inl hq)
  · by_cases hji : j = i
    · subst hji
      exact .inl ((announces_self hrun hwp).1 hj)
    · exact .inr (.inr ⟨j, hji, hj⟩)

/-- An exchange that is no publish, and makes no row PENDING, leaves every PENDING row covered. -/
theorem pendingQueued_of_quiet (hrun : c.threads i = some (req, .call op k))
    (hwp : wp pendingMonitor (.call op k) (fun _ g => g.Free) g) (hk : PendingQueued c) (hg : g.Free)
    (hp : ∀ id, (QueueWorld.apply c.world i ⟨op, out, took, h⟩).Pending id → QueueWorld.Pending c.world id) :
    PendingQueued (afterAct c i req op k out took h) := by
  refine (pendingQueued_act hwp).2 fun id hid => ?_
  rcases covered_before hrun hwp hk (hp id hid) with hdue | hq | hj
  · exact absurd hdue (hg id)
  · exact .inl (queued_apply hq)
  · exact .inr (.inr hj)

theorem pending_iff_of_lost {stream : String} {message : Fields} {k : Except PyError Unit → Proc JobSig Unit}
    {out : Except PyError Unit} {h : ∀ a, out = .ok a → false = true} (hI : FoundPending c.world)
    (hrun : c.threads i = some (req, .call (.publishJob stream message) k))
    (hwp : wp pendingMonitor (.call (.publishJob stream message) k) (fun _ g => g.Free) g) (hk : PendingQueued c) :
    (PendingQueued (afterAct c i req (.publishJob stream message) k out false h) ∧
      FailureRestores c (.act i req ⟨.publishJob stream message, out, false, h⟩)
        (afterAct c i req (.publishJob stream message) k out false h)) ↔
      PublishesKept c (.act i req ⟨.publishJob stream message, out, false, h⟩)
        (afterAct c i req (.publishJob stream message) k out false h) := by
  have hidle : ∀ id, phaseStep g ⟨.publishJob stream message, out, false, h⟩ ≠ .due id := by
    intro id
    rcases out with e | u
    · exact fun hdue => by cases hdue
    · exact absurd (h u rfl) (by decide)
  obtain ⟨id₀, rfl, hid₀⟩ : PendingPermitted g (.publishJob stream message) := hwp.1
  rw [pendingQueued_act hwp]
  constructor
  · rintro ⟨hq, hrestore⟩ id hid hp
    refine ⟨fun status hfound => ?_, (hq id hp).elim .inl fun hrest => .inr (hrest.resolve_left (hidle id))⟩
    have hstatus : (JobRows.get c.world.rows id).map (·.status) = some status := hrestore id status hfound hid
    exact (Option.some.inj (hp.symm.trans hstatus)).symm
  · intro hkept
    constructor
    · intro id hp
      rcases covered_before hrun hwp hk hp with hdue | helse
      · obtain rfl : id₀ = id := by simpa using hdue
        exact (hkept id₀ hid₀ hp).2.imp_right .inr
      · exact helse.imp_right .inr
    · intro id status hfound hid
      have hp : QueueWorld.Pending c.world id := hI i id status hfound
      obtain rfl := (hkept id hid hp).1 status hfound
      exact hp

theorem pending_iff_of_update {job : ConversionJob} {k : Except PyError Unit → Proc JobSig Unit}
    (out : Except PyError Unit) (h : ∀ a, out = .ok a → true = true)
    (hrun : c.threads i = some (req, .call (.updateJob job) k))
    (hwp : wp pendingMonitor (.call (.updateJob job) k) (fun _ g => g.Free) g)
    (hsent : ∀ id, g = .sent id → QueueWorld.Queued c.world id) (hk : PendingQueued c) :
    PendingQueued (afterAct c i req (.updateJob job) k out true h) ↔
      PublishesKept c (.act i req ⟨.updateJob job, out, true, h⟩) (afterAct c i req (.updateJob job) k out true h) := by
  obtain ⟨hfree, hs⟩ : PendingPermitted g (.updateJob job) := hwp.1
  have hrows : ∀ id, (QueueWorld.apply c.world i ⟨.updateJob job, out, true, h⟩).Pending id ↔
      if id = job.jobId then (JobRows.get c.world.rows job.jobId).isSome = true else QueueWorld.Pending c.world id := by
    intro id
    show ((JobRows.update c.world.rows job).get id).map (·.status) = _ ↔ _
    rw [get_update]
    split_ifs with hid
    · rw [hid]
      rcases JobRows.get c.world.rows job.jobId with _ | row <;> simp [hs]
    · exact Iff.rfl
  rw [pendingQueued_act hwp]
  constructor
  · intro hq hrow
    rcases hq job.jobId ((hrows job.jobId).2 (by rwa [if_pos rfl])) with hq | hdue | hj
    · exact .inr (.inl hq)
    · left
      by_contra hnot
      simp only [phaseStep] at hdue
      split_ifs at hdue
      exact hfree _ hdue
    · exact .inr (.inr hj)
  · intro hkept id hp
    by_cases hid : id = job.jobId
    · subst hid
      rw [hrows, if_pos rfl] at hp
      rcases hkept hp with hready | helse
      · by_cases hg : g = .sent job.jobId
        · exact .inl (hsent _ hg)
        · right
          left
          simp only [phaseStep]
          rw [if_neg hg, if_pos hready]
      · exact helse.imp_right .inr
    · rw [hrows, if_neg hid] at hp
      rcases covered_before hrun hwp hk hp with hdue | helse
      · exact absurd hdue (hfree id)
      · exact helse.imp_right .inr

theorem pending_iff_step {l : (requestSystem ctx).Label} (hI : (requestSystem ctx).Inv FoundPending PendingThread c)
    (hk : PendingQueued c) (hst : (requestSystem ctx).Step c l c') :
    PendingQueued c' ∧ FailureRestores c l c' ↔ PublishesKept c l c' := by
  cases hst with
  | @start i req p w hfree hspawn =>
    obtain ⟨rfl, -⟩ := hspawn
    refine ⟨fun _ => trivial, fun _ => ⟨fun id hp => (hk id hp).imp_right ?_, trivial⟩⟩
    rintro ⟨j, req', q, hj, hq⟩
    have hji : j ≠ i := by
      rintro rfl
      rw [hfree] at hj
      cases hj
    exact ⟨j, req', q, by simp only [Function.update_of_ne hji]; exact hj, hq⟩
  | @exit i =>
    have hother : ∀ id, (∃ j, @Announces ctx ⟨c.world, Function.update c.threads i none⟩ j id) ↔
        ∃ j, j ≠ i ∧ Announces c j id := by
      intro id
      refine exists_congr fun j => ?_
      by_cases hji : j = i
      · subst hji
        simp [Announces]
      · simp [Announces, hji]
    constructor
    · rintro ⟨hq, -⟩ id - hp
      exact (hq id hp).imp_right (hother id).1
    · refine fun hkept => ⟨fun id hp => ?_, trivial⟩
      rcases hk id hp with hq | ⟨j, hj⟩
      · exact .inl hq
      · by_cases hji : j = i
        · subst hji
          exact (hkept id hj hp).imp_right (hother id).2
        · exact .inr ((hother id).2 ⟨j, hji, hj⟩)
  | @act i req op k hrun out took h hall =>
    obtain ⟨g, hwp, hsent⟩ := hI.2 i req _ hrun
    have hpre : PendingPermitted g op := hwp.1
    have quiet : g.Free → (∀ id, (QueueWorld.apply c.world i ⟨op, out, took, h⟩).Pending id →
        QueueWorld.Pending c.world id) → PendingQueued (afterAct c i req op k out took h) :=
      fun hfree hp => pendingQueued_of_quiet hrun hwp hk hfree hp
    cases op with
    | publishJob stream message =>
      rcases took with _ | _
      · exact pending_iff_of_lost hI.1 hrun hwp hk
      · refine ⟨fun _ => trivial, fun _ => ⟨(pendingQueued_act hwp).2 fun id hp => ?_, trivial⟩⟩
        rcases covered_before hrun hwp hk hp with rfl | hq | hj
        · obtain ⟨id', hid', hid⟩ := hpre
          obtain rfl : id = id' := by simpa using hid'
          exact .inl ⟨message, List.mem_cons_self .., hid⟩
        · exact .inl (queued_apply hq)
        · exact .inr (.inr hj)
    | updateJob job =>
      rcases took with _ | _
      · exact ⟨fun _ => trivial, fun _ => ⟨quiet hpre.1 fun _ hp => hp, trivial⟩⟩
      · have hiff := pending_iff_of_update out h hrun hwp hsent hk
        exact ⟨fun hq => hiff.1 hq.1, fun hkept => ⟨hiff.2 hkept, trivial⟩⟩
    | insertJob row =>
      refine ⟨fun _ => trivial, fun _ => ⟨quiet hpre.1 fun id hp => ?_, trivial⟩⟩
      rcases took with _ | _
      · exact hp
      · have hnew : ((JobRows.insert c.world.rows row).get id).map (·.status) = some .pending := hp
        rw [get_insert] at hnew
        rcases hrow : JobRows.get c.world.rows id with _ | old
        · rw [hrow, Option.none_or] at hnew
          split_ifs at hnew
          · exact absurd (Option.some.inj hnew) hpre.2
          · cases hnew
        · rw [hrow, Option.some_or] at hnew
          show (JobRows.get c.world.rows id).map (·.status) = _
          rw [hrow]
          exact hnew
    | uuid4 => exact ⟨fun _ => trivial, fun _ => ⟨quiet hpre fun _ hp => hp, trivial⟩⟩
    | utcNow => exact ⟨fun _ => trivial, fun _ => ⟨quiet hpre fun _ hp => hp, trivial⟩⟩
    | getJob jobId => exact ⟨fun _ => trivial, fun _ => ⟨quiet hpre fun _ hp => hp, trivial⟩⟩
    | publishEvent event => exact hpre.elim
    | getAvailableTotal userId periodKey => exact hpre.elim
    | getTier userId => exact hpre.elim
    | consume userId periodKey units origin => exact hpre.elim
    | file op => exact hpre.elim
    | uploads op => exact hpre.elim

/-- A start of the system: no request runs, and every PENDING row has a message. -/
def RequestStart (c : (requestSystem ctx).Config) : Prop :=
  (∀ i, c.threads i = none) ∧ (∀ i, QueueWorld.found c.world i = none) ∧
    ∀ id, QueueWorld.Pending c.world id → QueueWorld.Queued c.world id

/-- **PENDING and queued**: along every run, every PENDING row has a message queued, or a request whose next call
publishes one, and a publish that fails leaves the status the request found, exactly if no publish fails after its
own request's move to PENDING, or for a PENDING row that nothing else covers, and no commit and publish are cut
apart. -/
theorem pending_queued_iff {tr : List ((requestSystem ctx).Label × (requestSystem ctx).Config)}
    (hc : RequestStart c) (hs : (requestSystem ctx).Steps c tr) :
    Along (fun c l c' => PendingQueued c' ∧ FailureRestores c l c') c tr ↔ Along PublishesKept c tr := by
  obtain ⟨hfree, hfound, hqueued⟩ := hc
  have hI : (requestSystem ctx).Inv FoundPending PendingThread c := by
    refine ⟨fun i id status h => ?_, fun i req p h => ?_⟩
    · rw [hfound i] at h
      cases h
    · rw [hfree i] at h
      cases h
  exact along_iff_of_step inv_of_request_step (fun c l c' hI hk hst => pending_iff_step hI hk hst) hI
    (fun id hp => .inl (hqueued id hp)) hs

/-! ## A concrete run -/

def requestDriver : (requestSystem ctx).Driver where
  reply
    | w, .getJob jobId => .ok (JobRows.get (QueueWorld.rows w) jobId)
    | _, op => .ok (Worker.answering op)
  check w _ _ ev := @decide _ (QueueWorld.decidableAllowed w ev)
  sound h := @of_decide_eq_true _ (QueueWorld.decidableAllowed _ _) h

def startRetry (jobId : String) (userId : Option ℤ) (i : ℕ) : (requestSystem ctx).Starter i where
  start w := some (.retry jobId userId .free, Request.program ctx (.retry jobId userId .free), w)
  sound h := by
    cases h
    exact ⟨rfl, rfl, fun _ h => by cases h⟩

/-- A job that failed, its message acknowledged. -/
def oneFailedJob : (requestSystem wiredService).Config where
  world := {
    rows := [{
      jobId := "job-1", conversion := Worker.pdfToDocx, inputFile := "a.pdf", objectKey := "up/a.pdf"
      status := .failed, userId := some 7 }]
    queued := [] }
  threads _ := none

theorem start_oneFailedJob : RequestStart oneFailedJob := by
  refine ⟨fun _ => rfl, fun _ => rfl, fun id hp => ?_⟩
  unfold QueueWorld.Pending at hp
  obtain ⟨row, hrow, hs⟩ := Option.map_eq_some_iff.1 hp
  obtain ⟨hmem, -⟩ := get_some hrow
  obtain rfl := List.mem_singleton.1 hmem
  cases hs

/-- Its owner retries it while the queue is away: the row is read and moved to PENDING, the publish raises. -/
def retryWithoutQueue : List ((requestSystem wiredService).Label × (requestSystem wiredService).Config) :=
  Sys.drive requestDriver oneFailedJob
    [.start 0 (startRetry "job-1" (some 7) 0), .go 0, .go 0, .fail 0 ⟨.other, "connection refused"⟩ false]

theorem pending_queued_iff_retryWithoutQueue :
    Along (fun c l c' => PendingQueued c' ∧ FailureRestores c l c') oneFailedJob retryWithoutQueue ↔
      Along PublishesKept oneFailedJob retryWithoutQueue :=
  pending_queued_iff start_oneFailedJob (steps_drive _ _ _)

/-- A retry whose publish fails leaves its job PENDING with no message. -/
theorem pending_without_message : ¬ ∀ (ctx : ServiceContext) (c : (requestSystem ctx).Config)
    (tr : List ((requestSystem ctx).Label × (requestSystem ctx).Config)), RequestStart c →
      (requestSystem ctx).Steps c tr → Along (fun c l c' => PendingQueued c' ∧ FailureRestores c l c') c tr := by
  intro h
  have hrun := h wiredService oneFailedJob retryWithoutQueue start_oneFailedJob (steps_drive _ _ _)
  rcases hrun.2.2.2.1.1 "job-1" rfl with ⟨m, hm, -⟩ | ⟨j, req, p, hj, hp⟩
  · cases hm
  · by_cases hj0 : j = 0
    · subst hj0
      cases hj
      cases hp
    · simp only [Function.update_of_ne hj0] at hj
      cases hj

end Runs

end Transform.Conversions
