import Transform.Conversions.BatchRequest

/-!
# Conversions.BatchOutcome — what a batch reports of its items

`BatchSettled` is the promise of `create_batch`: it returns, with one outcome per item, and the jobs it enqueued are
those of the outcomes.  Two exchanges spoil it (`spoils`): the stamp, which is made outside the `try` of the item, and
a publish that raises after the entry was appended.  `Since` counts both along a request.
-/

namespace Transform.Conversions

open Lib Billing Worker

/-! ## The promise -/

/-- The job id of an entry that reached the stream. -/
def enqueuedId : Event JobSig → Option String
  | ⟨.publishJob _ message, _, true, _⟩ => message.lookup "job_id"
  | _ => none

/-- The job ids that reached the stream, in order. -/
def enqueued (tr : List (Event JobSig)) : List String := tr.filterMap enqueuedId

/-- The stamp raises, or a publish that took effect does. -/
def spoils : Event JobSig → Bool
  | ⟨.updateJob job, .error _, _, _⟩ => job.batchId.isSome
  | ⟨.publishJob _ _, .error _, took, _⟩ => took
  | _ => false

/-- The outcome of `item`: a job or an error, never both. -/
structure BatchItemOutcome.Reports (item : BatchItemRequest) (outcome : BatchItemOutcome) : Prop where
  fileId : outcome.fileId = item.fileId
  fileName : outcome.fileName = item.fileName
  one : outcome.job.isSome = !outcome.error.isSome

def reportedIds (outcomes : List BatchItemOutcome) : List String :=
  outcomes.filterMap fun outcome => outcome.job.map (·.jobId)

/-- The promise of `create_batch`. -/
structure BatchOutcome.Faithful (items : List BatchItemRequest) (tr : List (Event JobSig)) (b : BatchOutcome) :
    Prop where
  reports : List.Forall₂ BatchItemOutcome.Reports items b.outcomes
  counts : b.createdCount + b.failedCount = items.length
  enqueued : enqueued tr = reportedIds b.outcomes

/-- The request returned, and as promised. -/
def BatchSettled (items : List BatchItemRequest) (tr : List (Event JobSig)) (r : Except PyError BatchOutcome) : Prop :=
  ∃ b, r = .ok b ∧ b.Faithful items tr

/-- `uuid4` answers. -/
def drawn : Event JobSig → Bool
  | ⟨.uuid4, .error _, _, _⟩ => false
  | _ => true

/-! ## Along a request -/

section Along

variable {ctx : ServiceContext} {req : BatchRequest} {batchId : String} {tr tr' tr'' : List (Event JobSig)}
  {ids ids' : List String} {spoilt spoilt' : Bool}

/-- Since `tr` the jobs `ids` were enqueued, and whether an exchange was spoilt. -/
structure Since (tr tr' : List (Event JobSig)) (ids : List String) (spoilt : Bool) : Prop where
  enqueued : enqueued tr' = enqueued tr ++ ids
  spoilt : tr'.any spoils = (tr.any spoils || spoilt)

theorem Since.refl : Since tr tr [] false := ⟨(List.append_nil _).symm, (Bool.or_false _).symm⟩

theorem Since.trans (h : Since tr tr' ids spoilt) (h' : Since tr' tr'' ids' spoilt') :
    Since tr tr'' (ids ++ ids') (spoilt || spoilt') where
  enqueued := by rw [h'.enqueued, h.enqueued, List.append_assoc]
  spoilt := by rw [h'.spoilt, h.spoilt, Bool.or_assoc]

/-- One more exchange. -/
theorem Since.snoc (h : Since tr tr' ids spoilt) (ev : Event JobSig) :
    Since tr (tr' ++ [ev]) (ids ++ (enqueuedId ev).toList) (spoilt || spoils ev) where
  enqueued := by
    rw [Conversions.enqueued, List.filterMap_append, ← Conversions.enqueued, h.enqueued, List.append_assoc]
    rcases hid : enqueuedId ev with _ | id <;> simp [hid]
  spoilt := by rw [List.any_append, h.spoilt, List.any_cons, List.any_nil, Bool.or_false, Bool.or_assoc]

/-- An exchange that neither publishes nor stamps. -/
theorem Since.idle (h : Since tr tr' ids spoilt) {ev : Event JobSig} (hid : enqueuedId ev = none)
    (hs : spoils ev = false) : Since tr (tr' ++ [ev]) ids spoilt := by
  have hsnoc := h.snoc ev
  rwa [hid, hs, Option.toList_none, List.append_nil, Bool.or_false] at hsnoc

/-- The monitor of a request: it keeps the exchanges, and `uuid4` answers. -/
abbrev batchTrace : Monitor JobSig (List (Event JobSig)) := .recording (drawn · = true)

theorem createConversionJob_since {job : ConversionJob} (h : Since tr tr' [] false) :
    wpe batchTrace (createConversionJob ctx job)
      (fun job' tr' => Since tr tr' [] false ∧ job' = { job with jobId := job'.jobId })
      (fun _ tr' => Since tr tr' [] false) tr' := by
  unfold createConversionJob saveConversionJob
  rw [wpe_bind]
  refine wpe_ofExcept (fun _ _ => ?_) fun _ _ => h
  rw [wpe_bind]
  refine wpe_ask.2 ⟨trivial, fun jobId _ => ?_, fun _ _ _ _ => h.idle rfl rfl⟩
  have h : Since tr (tr' ++ [.done .uuid4 (.ok jobId)]) [] false := h.idle rfl rfl
  rw [wpe_bind, wpe_bind]
  refine wpe_ask.2 ⟨trivial, fun now _ => ?_, fun _ _ _ _ => h.idle rfl rfl⟩
  have h : Since tr (tr' ++ [.done .uuid4 (.ok jobId)] ++ [.done .utcNow (.ok now)]) [] false := h.idle rfl rfl
  exact wpe_ask.2 ⟨trivial, fun _ _ => ⟨h.idle rfl rfl, rfl⟩, fun _ _ _ _ => h.idle rfl rfl⟩

theorem publishJob_since {job : ConversionJob} {tier : SubscriptionTier} (h : Since tr tr' [] false) :
    wpe batchTrace (publishJob ctx job tier) (fun _ tr' => Since tr tr' [job.jobId] false)
      (fun _ tr' => ∃ ids spoilt, Since tr tr' ids spoilt ∧ ids.length = spoilt.toNat) tr' := by
  unfold publishJob
  rw [wpe_bind]
  refine wpe_ofExcept (fun message hm => ?_) fun _ _ => ⟨[], false, h, rfl⟩
  have hid : message.toDict.lookup "job_id" = some job.jobId := by
    rw [lookup_toDict, fromConversionJob_ok hm]
  refine wpe_ask.2 ⟨trivial, fun u _ => ?_, fun e took hk _ => ?_⟩
  · have hev := h.snoc (.done (.publishJob _ message.toDict) (.ok u))
    simp only [enqueuedId, Event.done, hid] at hev
    exact hev
  · have hev := h.snoc ⟨.publishJob _ message.toDict, .error e, took, hk⟩
    rcases took with _ | _
    · exact ⟨_, _, hev, rfl⟩
    · simp only [enqueuedId, hid] at hev
      exact ⟨_, _, hev, rfl⟩

theorem pushConversionJob_since {job : ConversionJob} {tier : SubscriptionTier} (hs : job.status = .awaitingUpload)
    (hb : job.batchId = none) (h : Since tr tr' [] false) :
    wpe batchTrace (pushConversionJob ctx job tier) (fun job' tr' => Since tr tr' [job'.jobId] false)
      (fun _ tr' => ∃ ids spoilt, Since tr tr' ids spoilt ∧ ids.length = spoilt.toNat) tr' := by
  unfold pushConversionJob
  split_ifs
  · exact ⟨[], false, h, rfl⟩
  rw [wpe_bind]
  refine wpe_ofExcept (fun _ _ => ?_) fun _ _ => ⟨[], false, h, rfl⟩
  unfold leaveAwaitingUpload
  rw [if_pos hs, wpe_bind, wpe_bind]
  refine wpe_ofExcept (fun job' hjob' => ?_) fun _ _ => ⟨[], false, h, rfl⟩
  obtain ⟨-, rfl⟩ := pendingProcessing_ok hjob'
  rw [wpe_bind]
  refine wpe_ask.2 ⟨trivial, fun u _ => ?_, fun e took hk _ => ?_⟩
  · rw [wpe_pure, wpe_bind]
    exact publishJob_since (h.idle rfl rfl)
  · have hstamp : spoils ⟨.updateJob { job with status := .pending }, .error e, took, hk⟩ = false := by
      simp only [spoils, hb, Option.isSome_none]
    exact ⟨[], false, h.idle rfl hstamp, rfl⟩

theorem convertLibraryFile_since {fileName sourceFormat targetFormat objectKey : String} {userId : ℤ}
    {tier : SubscriptionTier} {origin : JobOrigin} :
    wpe batchTrace (convertLibraryFile ctx fileName sourceFormat targetFormat objectKey userId tier origin)
      (fun job tr' => Since tr tr' [job.jobId] false)
      (fun _ tr' => ∃ ids spoilt, Since tr tr' ids spoilt ∧ ids.length = spoilt.toNat) tr := by
  unfold convertLibraryFile
  rw [wpe_bind]
  refine wpe_mono (createConversionJob_since .refl) ?_ fun _ _ h => ⟨[], false, h, rfl⟩
  rintro job tr' ⟨h, hjob⟩
  rw [hjob]
  exact pushConversionJob_since rfl rfl h

/-- What an item leaves behind: its outcome, and its job enqueued where the outcome has one; a spoilt item has
enqueued one job more than it reports. -/
def Told (outcomes : List BatchItemOutcome) (ids : List String) (spoilt : Bool) : Prop :=
  (spoilt = false → ids = reportedIds outcomes) ∧ (reportedIds outcomes).length + spoilt.toNat ≤ ids.length

theorem told_append {outcomes outcomes' : List BatchItemOutcome} (h : Told outcomes ids spoilt)
    (h' : Told outcomes' ids' spoilt') : Told (outcomes ++ outcomes') (ids ++ ids') (spoilt || spoilt') := by
  have hids : reportedIds (outcomes ++ outcomes') = reportedIds outcomes ++ reportedIds outcomes' :=
    List.filterMap_append
  refine ⟨fun hs => ?_, ?_⟩
  · obtain ⟨hs, hs'⟩ := Bool.or_eq_false_iff.1 hs
    rw [hids, ← h.1 hs, ← h'.1 hs']
  · have hle := h.2
    have hle' := h'.2
    have hor : (spoilt || spoilt').toNat ≤ spoilt.toNat + spoilt'.toNat := by
      cases spoilt <;> cases spoilt' <;> decide
    rw [hids, List.length_append, List.length_append]
    omega

/-- **One item**: only its stamp makes it raise. -/
theorem createBatchItem_since {item : BatchItemRequest} :
    wpe batchTrace (createBatchItem ctx req batchId item)
      (fun outcome tr' => BatchItemOutcome.Reports item outcome ∧
        ∃ ids spoilt, Since tr tr' ids spoilt ∧ Told [outcome] ids spoilt)
      (fun _ tr' => ∃ ids, Since tr tr' ids true) tr := by
  unfold createBatchItem
  rw [wpe_bind, wpe_tryCatch, wpe_bind]
  refine wpe_mono convertLibraryFile_since (fun job tr' h => ?_) fun e tr' h => ?_
  · rw [wpe_pure]
    dsimp only
    rw [wpe_bind]
    refine wpe_ask.2 ⟨trivial, fun _ _ => ?_, fun _ _ _ _ => ⟨_, h.snoc _⟩⟩
    exact ⟨⟨rfl, rfl, rfl⟩, _, _, h.idle rfl rfl, fun _ => rfl, le_rfl⟩
  · obtain ⟨ids, spoilt, h, hids⟩ := h
    refine ⟨⟨rfl, rfl, rfl⟩, ids, spoilt, h, fun hs => ?_, ?_⟩
    · rw [hs] at hids
      exact List.length_eq_zero_iff.1 hids
    · rw [hids]
      exact (Nat.zero_add _).le

/-- The items one after the other: none is left out, and the first stamp that raises ends the batch. -/
theorem createBatchItems_since : ∀ {items : List BatchItemRequest} {tr : List (Event JobSig)},
    wpe batchTrace (createBatchItems ctx req batchId items)
      (fun outcomes tr' => List.Forall₂ BatchItemOutcome.Reports items outcomes ∧
        ∃ ids spoilt, Since tr tr' ids spoilt ∧ Told outcomes ids spoilt)
      (fun _ tr' => ∃ ids, Since tr tr' ids true) tr
  | [], _ => ⟨.nil, [], false, .refl, fun _ => rfl, le_rfl⟩
  | item :: items, tr => by
    unfold createBatchItems
    rw [wpe_bind]
    refine wpe_mono createBatchItem_since ?_ fun _ _ h => h
    rintro outcome tr' ⟨hreports, ids, spoilt, h, htold⟩
    rw [wpe_bind]
    refine wpe_mono createBatchItems_since ?_ ?_
    · rintro outcomes tr'' ⟨hreports', ids', spoilt', h', htold'⟩
      exact ⟨.cons hreports hreports', _, _, h.trans h', told_append htold htold'⟩
    · rintro e tr'' ⟨ids', h'⟩
      have hraised := h.trans h'
      rw [Bool.or_true] at hraised
      exact ⟨_, hraised⟩

theorem effectiveBatchId_since :
    wpe batchTrace (effectiveBatchId req) (fun _ tr' => Since tr tr' [] false) (fun _ _ => False) tr := by
  unfold effectiveBatchId
  rcases truthy req.batchId with _ | batchId
  · refine wpe_ask.2 ⟨trivial, fun _ _ => Since.refl.idle rfl rfl, fun e took hk hdrawn => ?_⟩
    exact Bool.false_ne_true hdrawn
  · exact .refl

/-- **The request**: it returns unless a stamp raised. -/
theorem createBatch_since :
    wpe batchTrace (createBatch ctx req)
      (fun b tr' => List.Forall₂ BatchItemOutcome.Reports req.items b.outcomes ∧
        ∃ ids spoilt, Since tr tr' ids spoilt ∧ Told b.outcomes ids spoilt)
      (fun _ tr' => ∃ ids, Since tr tr' ids true) tr := by
  unfold createBatch
  rw [wpe_bind]
  refine wpe_mono effectiveBatchId_since (fun batchId tr' h => ?_) fun _ _ h => h.elim
  rw [wpe_bind]
  refine wpe_mono createBatchItems_since ?_ ?_
  · rintro outcomes tr'' ⟨hreports, ids, spoilt, h', htold⟩
    have hall := h.trans h'
    rw [Bool.false_or] at hall
    exact ⟨hreports, ids, spoilt, hall, htold⟩
  · rintro e tr'' ⟨ids, h'⟩
    have hall := h.trans h'
    rw [Bool.false_or] at hall
    exact ⟨_, hall⟩

end Along

/-! ## When it is kept -/

section Settled

variable {ctx : ServiceContext} {req : BatchRequest}

theorem any_spoils_eq_false {tr : List (Event JobSig)} : tr.any spoils = false ↔ ∀ ev ∈ tr, spoils ev = false := by
  simp only [List.any_eq_false, Bool.not_eq_true]

theorem createBatch_ended {tr : List (Event JobSig)} {r : Except PyError BatchOutcome}
    (hrun : Run (createBatch ctx req).run tr r) (hdrawn : ∀ ev ∈ tr, drawn ev = true) :
    (∃ b, r = .ok b ∧ List.Forall₂ BatchItemOutcome.Reports req.items b.outcomes ∧
        Told b.outcomes (enqueued tr) (tr.any spoils)) ∨
      ∃ e, r = .error e ∧ tr.any spoils = true := by
  have hended := wp_recording_run createBatch_since hrun hdrawn
  rcases r with e | b
  · obtain ⟨ids, h⟩ := hended
    exact .inr ⟨e, rfl, h.spoilt⟩
  · obtain ⟨hreports, ids, spoilt, h, htold⟩ := hended
    obtain rfl : enqueued tr = ids := h.enqueued
    obtain rfl : tr.any spoils = spoilt := h.spoilt
    exact .inl ⟨b, rfl, hreports, htold⟩

/-- A request keeps its promise exactly when no stamp raises, and no publish raises once its entry is on the stream. -/
theorem createBatch_settled_iff {tr : List (Event JobSig)} {r : Except PyError BatchOutcome}
    (hrun : Run (createBatch ctx req).run tr r) (hdrawn : ∀ ev ∈ tr, drawn ev = true) :
    BatchSettled req.items tr r ↔ ∀ ev ∈ tr, spoils ev = false := by
  rw [← any_spoils_eq_false]
  rcases createBatch_ended hrun hdrawn with ⟨b, rfl, hreports, htold⟩ | ⟨e, rfl, hspoilt⟩
  · constructor
    · rintro ⟨b', hb', hfaithful⟩
      cases hb'
      have hle := htold.2
      rw [hfaithful.enqueued] at hle
      rcases hs : tr.any spoils with _ | _
      · rfl
      · rw [hs, Bool.toNat_true] at hle
        omega
    · intro hs
      refine ⟨b, rfl, hreports, ?_, htold.1 hs⟩
      have hcreated : b.createdCount ≤ b.outcomes.length := List.length_filter_le _ _
      have hlength : req.items.length = b.outcomes.length := hreports.length_eq
      unfold BatchOutcome.failedCount
      omega
  · constructor
    · rintro ⟨b, hb, -⟩
      cases hb
    · intro hs
      rw [hs] at hspoilt
      cases hspoilt

end Settled

/-! ## A refused publish, and a lost stamp -/

section LostStamp

def oneItemBatch : BatchRequest where
  items := [⟨"file-1", "a.pdf", "up/a.pdf", "pdf", "docx"⟩]
  userId := 7
  tier := .free
  batchId := some "batch-1"
  workflowId := none
  origin := .web

/-- Everything answers; `stamp` is what the update of a stamped row gives. -/
def stampReply (stamp : Except PyError Unit) : (op : JobOp) → Except PyError op.Ans
  | .uuid4 => .ok "job-1"
  | .utcNow => .ok 0
  | .insertJob _ => .ok ()
  | .updateJob job => if job.batchId.isSome then stamp else .ok ()
  | .publishJob _ _ => .ok ()
  | _ => .error ⟨.other, "not asked by a batch"⟩

def stampEnv (stamp : Except PyError Unit) : Env JobSig Unit where
  reply _ := stampReply stamp
  effect _ _ := ()

/-- The run of `oneItemBatch`, up to what its stamp gives. -/
def oneItemRun (stamp : Except PyError Unit) : List (Event JobSig) × Except PyError BatchOutcome :=
  (createBatch wiredService oneItemBatch).run.play (stampEnv stamp) ()

def lostStamp : Except PyError Unit := .error ⟨.droppedConnection, "connection was closed"⟩

/-- Of four items the second has no converter, and the stream refuses the message of the third. -/
def fourItemBatch : BatchRequest :=
  { oneItemBatch with
    items := [⟨"file-1", "a.pdf", "up/a.pdf", "pdf", "docx"⟩, ⟨"file-2", "b.pdf", "up/b.pdf", "pdf", "mobi"⟩,
      ⟨"file-3", "c.pdf", "up/c.pdf", "pdf", "docx"⟩, ⟨"file-4", "d.pdf", "up/d.pdf", "pdf", "docx"⟩] }

/-- Ids are drawn in turn, and the second job is not published. -/
def refusingEnv : Env JobSig ℕ where
  reply draws
    | .uuid4 => .ok s!"job-{draws + 1}"
    | .publishJob _ _ => if draws = 2 then .error ⟨.droppedConnection, "connection was closed"⟩ else .ok ()
    | op => stampReply (.ok ()) op
  effect draws ev := match ev.op with
    | .uuid4 => draws + 1
    | _ => draws

def fourItemRun : List (Event JobSig) × Except PyError BatchOutcome :=
  (createBatch wiredService fourItemBatch).run.play refusingEnv 0

theorem createBatch_settled_fourItemRun : BatchSettled fourItemBatch.items fourItemRun.1 fourItemRun.2 :=
  (createBatch_settled_iff (run_play refusingEnv _ 0) (by decide +kernel)).2 (by decide +kernel)

/-- The stamp is outside the `try`: a lost connection there takes the whole batch down, and its one job is queued. -/
theorem stamp_takes_batch_down : ¬ ∀ (ctx : ServiceContext) (req : BatchRequest) (tr : List (Event JobSig))
    (r : Except PyError BatchOutcome), Run (createBatch ctx req).run tr r → (∀ ev ∈ tr, drawn ev = true) →
      BatchSettled req.items tr r := by
  intro h
  obtain ⟨b, hb, -⟩ := h wiredService oneItemBatch _ _ (run_play (stampEnv lostStamp) _ ()) (by decide +kernel)
  have hraised : (oneItemRun lostStamp).2 = .error ⟨.droppedConnection, "connection was closed"⟩ := rfl
  rw [oneItemRun, hb] at hraised
  cases hraised

end LostStamp

end Transform.Conversions
