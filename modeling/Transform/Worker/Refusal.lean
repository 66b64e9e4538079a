import Transform.Worker.Settlement

/-!
# Worker.Refusal — a job whose owner has nothing left to spend

The credit pre-check refuses such a job before any work is done for it.  The refusal is written and announced inside the
`try` of the pre-check, whose handler lets a job go on: an announcement that raises undoes it (`refused_iff`).
-/

namespace Transform.Worker

open Lib Billing Conversions

/-! ## The entity -/

section Entity

variable (ctx : WorkerContext) (periodKey : String)

/-- `process_job` over the entity that it is called with, which is left as the last statement had it. -/
def processEntity (job : ConversionJob) : Body Unit := do
  match (← .act (loadPersistedJob ctx job.jobId)).filter isFinished with
  | some row =>
    .act (call (.publishEvent {
      jobId := job.jobId, status := .completed, progress := 100, message := some "conversion completed"
      computeDurationMs := some row.computeDurationMs, creditsUsed := some row.creditsUsed
      inputSizeBytes := some row.inputSizeBytes, outputSizeBytes := some row.outputSizeBytes
      outputFile := row.outputFile }))
  | none => (attempt ctx periodKey job).tryCatch (giveUp ctx)

/-- The statement started on the delivered entity. -/
def entityRun (job : ConversionJob) : Proc JobSig (Except PyError Unit × Locals) :=
  (processEntity ctx periodKey job).run ⟨job, { jobId := job.jobId }⟩

end Entity

/-! ## What a refusal is -/

section Refusal

/-- The work that a job costs: download, conversion, upload and charge. -/
def IsWork : JobOp → Prop
  | .file (.download _ _) | .file (.convert _ _ _) | .file (.upload _ _) | .consume _ _ _ _ => True
  | _ => False

/-- Nothing was done for the job, and it is FAILED. -/
def Refused (tr : List (Event JobSig)) (job : ConversionJob) : Prop :=
  (∀ ev ∈ tr, ¬ IsWork ev.op) ∧ job.status = .failed

/-- The wallet answers that nothing is left of it, and the tier is answered. -/
def NothingLeft : Event JobSig → Prop
  | ⟨.getAvailableTotal _ _, .ok (some available), _, _⟩ => available ≤ 0
  | ⟨.getAvailableTotal _ _, _, _, _⟩ => False
  | ⟨.getTier _, .error _, _, _⟩ => False
  | _ => True

/-- The wallet was asked for. -/
def Asked (tr : List (Event JobSig)) : Prop := ∃ ev ∈ tr, ∃ userId periodKey, ev.op = .getAvailableTotal userId periodKey

def refusalEvent (jobId : String) : JobEvent where
  jobId
  status := .failed
  progress := 100
  message := some "conversion credits exhausted"
  creditsRemaining := some 0

def downloadingEvent (jobId : String) : JobEvent := ({ jobId : EventContext }).downloading.toDict

/-- The announcement of the refusal raised. -/
def RefusalLost (jobId : String) (tr : List (Event JobSig)) : Prop :=
  ∃ e took h, (⟨.publishEvent (refusalEvent jobId), .error e, took, h⟩ : Event JobSig) ∈ tr

/-- The download was announced. -/
def Downloading (jobId : String) (tr : List (Event JobSig)) : Prop :=
  .done (.publishEvent (downloadingEvent jobId)) (.ok ()) ∈ tr

end Refusal

/-! ## What the exchanges of a run show -/

section Traces

variable {tr : List (Event JobSig)} {ev : Event JobSig} {jobId : String}

/-- Reading and writing the row, and reading the wallet. -/
def IsCalm : JobOp → Prop
  | .getJob _ | .updateJob _ | .getAvailableTotal _ _ | .getTier _ => True
  | _ => False

def Calm (tr : List (Event JobSig)) : Prop := ∀ ev ∈ tr, IsCalm ev.op

/-- No work was done, and none was announced. -/
structure Idle (jobId : String) (tr : List (Event JobSig)) : Prop where
  idle : ∀ ev ∈ tr, ¬ IsWork ev.op
  unannounced : ¬ Downloading jobId tr

structure WentOn (jobId : String) (tr : List (Event JobSig)) : Prop where
  lost : RefusalLost jobId tr
  announced : Downloading jobId tr
  worked : ∃ ev ∈ tr, IsWork ev.op

theorem forall_mem_append {φ : Event JobSig → Prop} (h : ∀ e ∈ tr, φ e) (hev : φ ev) : ∀ e ∈ tr ++ [ev], φ e := by
  intro e he
  rcases List.mem_append.1 he with he | he
  · exact h e he
  · rw [List.mem_singleton.1 he]
    exact hev

theorem calm_append (h : Calm tr) (hev : IsCalm ev.op) : Calm (tr ++ [ev]) := forall_mem_append h hev

theorem not_work_of_calm {op : JobOp} (h : IsCalm op) : ¬ IsWork op := by
  intro hw
  cases op <;> first | exact h | exact hw

theorem not_asked_append (h : ¬ Asked tr) (hev : ∀ userId periodKey, ev.op ≠ .getAvailableTotal userId periodKey) :
    ¬ Asked (tr ++ [ev]) := by
  rintro ⟨e, he, userId, periodKey, hop⟩
  rcases List.mem_append.1 he with he | he
  · exact h ⟨e, he, userId, periodKey, hop⟩
  · rw [List.mem_singleton.1 he] at hop
    exact hev userId periodKey hop

theorem idle_append (h : Idle jobId tr) (hwork : ¬ IsWork ev.op) (hdown : ev.op ≠ .publishEvent (downloadingEvent jobId)) :
    Idle jobId (tr ++ [ev]) where
  idle := forall_mem_append h.idle hwork
  unannounced hd := by
    rcases List.mem_append.1 hd with hd | hd
    · exact h.unannounced hd
    · exact hdown (congrArg Event.op (List.mem_singleton.1 hd)).symm

theorem idle_of_calm (h : Calm tr) : Idle jobId tr where
  idle ev hev := not_work_of_calm (h ev hev)
  unannounced hd := h _ hd

theorem not_lost_of_calm (h : Calm tr) : ¬ RefusalLost jobId tr := by
  rintro ⟨e, took, hk, hmem⟩
  exact h _ hmem

theorem lost_append (h : RefusalLost jobId tr) : RefusalLost jobId (tr ++ [ev]) := by
  obtain ⟨e, took, hk, hmem⟩ := h
  exact ⟨e, took, hk, List.mem_append_left _ hmem⟩

theorem wentOn_append (h : WentOn jobId tr) : WentOn jobId (tr ++ [ev]) where
  lost := lost_append h.lost
  announced := List.mem_append_left _ h.announced
  worked := by
    obtain ⟨e, he, hw⟩ := h.worked
    exact ⟨e, List.mem_append_left _ he, hw⟩

end Traces

/-! ## The run -/

section Run

/-- What is shown of a run: a refused job is refused, unless its refusal is lost and its download announced. -/
def Decided (jobId : String) (l : Locals) (tr : List (Event JobSig)) : Prop :=
  Asked tr → (Refused tr l.job ↔ ¬ (RefusalLost jobId tr ∧ Downloading jobId tr))

variable {ctx : WorkerContext} {periodKey : String} {job : ConversionJob} {l : Locals} {tr : List (Event JobSig)}
  {jobId : String}

theorem decided_of_unasked (h : ¬ Asked tr) : Decided jobId l tr := fun ha => absurd ha h

theorem decided_of_idle (h : Idle jobId tr) (hstatus : l.job.status = .failed) : Decided jobId l tr := fun _ =>
  ⟨fun _ hslip => h.unannounced hslip.2, fun _ => ⟨h.idle, hstatus⟩⟩

theorem decided_of_wentOn (h : WentOn jobId tr) : Decided jobId l tr := by
  refine fun _ => ⟨fun hr => ?_, fun hslip => absurd ⟨h.lost, h.announced⟩ hslip⟩
  obtain ⟨ev, hev, hw⟩ := h.worked
  exact absurd hw (hr.1 ev hev)

theorem wpe_wentOn {α : Type} {p : Py α} (h : WentOn jobId tr) :
    wpe (.recording NothingLeft) p (fun _ tr => WentOn jobId tr) (fun _ tr => WentOn jobId tr) tr := by
  refine wp_of_inv (R := WentOn jobId) (fun _ _ _ => trivial) (fun _ _ h _ => wentOn_append h) (fun r tr h => ?_) h
  rcases r with e | a
  · exact h
  · exact h

theorem wps_wentOn {α : Type} {p : Body α} (h : WentOn jobId tr) :
    wps (.recording NothingLeft) p (fun _ _ tr => WentOn jobId tr) (fun _ _ tr => WentOn jobId tr) l tr := by
  refine wp_of_inv (R := WentOn jobId) (fun _ _ _ => trivial) (fun _ _ h _ => wentOn_append h) (fun r tr h => ?_) h
  obtain ⟨e | a, l'⟩ := r
  · exact h
  · exact h

theorem wps_persist_recording {I : List (Event JobSig) → Prop} {terminal : Bool}
    {Q : Unit → Locals → List (Event JobSig) → Prop} {E : PyError → Locals → List (Event JobSig) → Prop} (hg : I tr)
    (hI : ∀ tr ev, I tr → ev.op = .updateJob l.job → I (tr ++ [ev])) (hQ : ∀ tr, I tr → Q () l tr) :
    wps (.recording NothingLeft) (persist ctx terminal) Q E l tr :=
  wps_persist_of hg (fun tr h => wpe_ask.2 ⟨trivial, fun _ _ => hI tr _ h rfl, fun _ _ _ _ => hI tr _ h rfl⟩) hQ

/-- The outer handler writes the row, announces the failure, and leaves the job FAILED. -/
theorem giveUp_recording {e : PyError} {I : List (Event JobSig) → Prop}
    (hrow : ∀ tr ev job, I tr → ev.op = .updateJob job → I (tr ++ [ev]))
    (hevent : ∀ tr ev event, I tr → event.status = .failed → ev.op = .publishEvent event → I (tr ++ [ev])) (h : I tr) :
    wps (.recording NothingLeft) (giveUp ctx e) (fun _ l tr => I tr ∧ l.job.status = .failed)
      (fun _ l tr => I tr ∧ l.job.status = .failed) l tr := by
  unfold giveUp publish
  rw [wps_bind, assignJob, wps_modify, wps_bind, recordProgress, wps_modify, wps_bind]
  refine wps_persist_recording h (fun tr ev h hop => hrow tr ev _ h hop) fun tr h => ?_
  rw [wps_bind, wps_bind, wps_modify, wps_bind, wps_get, wps_act]
  exact wpe_ask.2 ⟨trivial, fun _ _ => ⟨hevent tr _ _ h rfl rfl, markFailed_status _⟩,
    fun _ _ _ _ => ⟨hevent tr _ _ h rfl rfl, markFailed_status _⟩⟩

/-- The refusal stands: nothing was done, and its announcement did not raise. -/
structure Stands (jobId : String) (l : Locals) (tr : List (Event JobSig)) : Prop where
  idle : ∀ ev ∈ tr, ¬ IsWork ev.op
  status : l.job.status = .failed
  kept : ¬ RefusalLost jobId tr

/-- The refusal is lost: nothing was done yet, and the job is about to go on. -/
structure Undone (jobId : String) (l : Locals) (tr : List (Event JobSig)) : Prop where
  idle : Idle jobId tr
  event : l.event = { jobId }
  lost : RefusalLost jobId tr

theorem decided_of_stands (h : Stands jobId l tr) : Decided jobId l tr := fun _ =>
  ⟨fun _ hslip => h.kept hslip.1, fun _ => ⟨h.idle, h.status⟩⟩

theorem lost_append_announced {ev : Event JobSig} {out : Except PyError Unit} {took : Bool}
    {h : ∀ a, out = .ok a → took = true} (hev : ev = ⟨.publishEvent (refusalEvent jobId), out, took, h⟩) (hc : Calm tr) :
    RefusalLost jobId (tr ++ [ev]) ↔ ∃ e, out = .error e := by
  subst hev
  constructor
  · rintro ⟨e, took', hk, hmem⟩
    rcases List.mem_append.1 hmem with hmem | hmem
    · exact absurd ⟨e, took', hk, hmem⟩ (not_lost_of_calm hc)
    · have hout := List.mem_singleton.1 hmem
      injection hout with _ hout
      exact ⟨e, hout.symm⟩
  · rintro ⟨e, rfl⟩
    exact ⟨e, took, h, List.mem_append_right _ (List.mem_singleton.2 rfl)⟩

theorem creditPreCheck_recording {userId : ℤ} {E : PyError → Locals → List (Event JobSig) → Prop} (hport : ctx.creditPort)
    (huser : l.job.userId = some userId) (hid : l.job.jobId = jobId) (hevent : l.event = { jobId }) (hc : Calm tr) :
    wps (.recording NothingLeft) (creditPreCheck ctx periodKey)
      (fun r l tr => (r = none ∧ Stands jobId l tr) ∨ (∃ tier, r = some tier) ∧ Undone jobId l tr) E l tr := by
  unfold creditPreCheck
  rw [wps_bind, wps_get, huser]
  dsimp only
  rw [if_neg (by simp [hport]), wps_tryCatch, wps_bind, wps_act]
  refine wpe_ask.2 ⟨trivial, fun available hleft => ?_, fun e took h hleft => hleft.elim⟩
  rcases available with _ | available
  · exact hleft.elim
  rw [wps_bind, wps_act]
  refine wpe_ask.2 ⟨trivial, fun tier _ => ?_, fun e took h hleft => hleft.elim⟩
  have hany : (some available).any (· ≤ 0) = true := decide_eq_true hleft
  rw [if_pos hany, wps_bind, assignJob, wps_modify, wps_bind, assignJob, wps_modify, wps_bind]
  refine wps_persist_recording (I := Calm) (calm_append (calm_append hc trivial) trivial)
    (fun tr ev h hop => calm_append h (by rw [hop]; trivial)) fun tr hc => ?_
  rw [wps_bind, wps_act]
  have hlost := @lost_append_announced tr l.job.jobId
  refine wpe_ask.2 ⟨trivial, fun _ _ => ?_, fun e took h _ => ?_⟩
  · refine .inl ⟨rfl, forall_mem_append (@idle_of_calm _ jobId hc).idle id, markFailed_status _, ?_⟩
    rw [← hid]
    intro h
    obtain ⟨e, he⟩ := (hlost rfl hc).1 h
    cases he
  · refine .inr ⟨⟨.free, rfl⟩, idle_append (idle_of_calm hc) id ?_, hevent, ?_⟩
    · intro h
      injection h with h
      exact absurd (congrArg JobEvent.progress h) (by show (100 : ℤ) ≠ 25; decide)
    · rw [← hid]
      exact (hlost rfl hc).2 ⟨e, rfl⟩

theorem downloadInputFile_recording {path : WorkPath}
    (hdone : ∀ ev : Event JobSig, IsWork ev.op → WentOn jobId (tr ++ [ev])) :
    wpe (.recording NothingLeft) (downloadInputFile ctx job path) (fun _ tr => WentOn jobId tr)
      (fun _ tr => WentOn jobId tr) tr := by
  unfold downloadInputFile retryOnException
  show wpe _ (attempts _ 2) _ _ tr
  unfold attempts
  rw [wpe_tryCatch, wpe_bind]
  exact wpe_ask.2 ⟨trivial, fun _ _ => wpe_mono (wpe_wentOn (hdone _ trivial)) (fun _ _ h => h) fun _ _ h => wpe_wentOn h,
    fun _ _ _ _ => wpe_wentOn (hdone _ trivial)⟩

/-- A job whose refusal is lost does its work if the download's announcement does not raise too. -/
theorem convert_recording {tier : SubscriptionTier} (h : Undone jobId l tr) :
    wps (.recording NothingLeft) (convert ctx job tier) (fun _ _ tr => WentOn jobId tr)
      (fun _ _ tr => WentOn jobId tr ∨ Idle jobId tr) l tr := by
  unfold convert publish
  rw [wps_bind, wps_bind, wps_modify, wps_bind, wps_get, wps_act]
  refine wpe_ask.2 ⟨trivial, fun _ _ => ?_, fun e took hk _ => .inr ⟨forall_mem_append h.idle.idle id, ?_⟩⟩
  · rw [wps_bind, recordProgress, wps_modify, wps_bind]
    have hgone : RefusalLost jobId (tr ++ [.done (.publishEvent (EventContext.downloading l.event).toDict) (.ok ())]) ∧
        Downloading jobId (tr ++ [.done (.publishEvent (EventContext.downloading l.event).toDict) (.ok ())]) := by
      rw [h.event]
      exact ⟨lost_append h.lost, List.mem_append_right _ (List.mem_singleton.2 rfl)⟩
    refine wps_persist_recording (I := fun tr => RefusalLost jobId tr ∧ Downloading jobId tr) hgone
      (fun tr ev h _ => ⟨lost_append h.1, List.mem_append_left _ h.2⟩) fun tr hgone => ?_
    rw [wps_bind, wps_act]
    refine wpe_mono (downloadInputFile_recording fun ev hev => ⟨lost_append hgone.1, List.mem_append_left _ hgone.2, ev,
      List.mem_append_right _ (List.mem_singleton.2 rfl), hev⟩) (fun _ _ h => ?_) fun _ _ h => .inl h
    exact wps_mono (wps_wentOn h) (fun _ _ _ h => h) fun _ _ _ h => .inl h
  · intro hd
    rcases List.mem_append.1 hd with hd | hd
    · exact h.idle.unannounced hd
    · injection List.mem_singleton.1 hd with _ hout
      cases hout

/-- The guard reads the row and nothing else, and does not raise. -/
theorem loadPersistedJob_recording {E : PyError → List (Event JobSig) → Prop} :
    wpe (.recording NothingLeft) (loadPersistedJob ctx jobId) (fun _ tr => Calm tr ∧ ¬ Asked tr) E [] := by
  have hnil : Calm [] ∧ ¬ Asked [] := by
    refine ⟨fun ev h => ?_, ?_⟩
    · cases h
    · rintro ⟨ev, h, -⟩
      cases h
  have hrow : ∀ tr ev, (Calm tr ∧ ¬ Asked tr) → ev.op = .getJob jobId → Calm (tr ++ [ev]) ∧ ¬ Asked (tr ++ [ev]) :=
    fun tr ev h hop => ⟨calm_append h.1 (by rw [hop]; trivial),
      not_asked_append h.2 fun _ _ h' => by rw [hop] at h'; cases h'⟩
  unfold loadPersistedJob
  split_ifs
  · rw [wpe_tryCatch]
    refine wpe_onFreshSession (I := fun tr => Calm tr ∧ ¬ Asked tr) ?_ (fun _ _ h => h) hnil
    exact fun tr h => wpe_ask.2 ⟨trivial, fun _ _ => hrow tr _ h rfl, fun _ _ _ _ => hrow tr _ h rfl⟩
  · exact hnil

theorem attempt_recording {userId : ℤ} (hport : ctx.creditPort) (huser : job.userId = some userId) (hc : Calm tr)
    (hasked : ¬ Asked tr) :
    wps (.recording NothingLeft) (attempt ctx periodKey job) (fun _ l tr => Decided job.jobId l tr)
      (fun _ _ tr => ¬ Asked tr ∨ WentOn job.jobId tr ∨ Idle job.jobId tr) ⟨job, { jobId := job.jobId }⟩ tr := by
  unfold attempt
  rw [wps_bind, wps_transition]
  refine ⟨fun job' hjob' => ?_, fun _ _ => .inl hasked⟩
  obtain ⟨-, -, rfl⟩ := startProcessing_ok hjob'
  rw [wps_bind]
  refine wps_persist_recording (I := Calm) hc (fun tr ev h hop => calm_append h (by rw [hop]; trivial)) fun tr hc => ?_
  rw [wps_bind]
  refine wps_mono (@creditPreCheck_recording _ _ _ _ job.jobId _ _ hport huser rfl rfl hc) ?_ fun _ _ _ h => h
  rintro r _ tr (⟨rfl, h⟩ | ⟨⟨tier, rfl⟩, h⟩)
  · exact decided_of_stands h
  · refine wps_bind.2 (wps_mono (convert_recording h) (fun result l tr h => ?_) fun _ _ _ h => .inr h)
    exact wps_mono (wps_wentOn h) (fun _ _ _ h => decided_of_wentOn h) fun _ _ _ h => .inr (.inl h)

/-- The specification of a run whose wallet is empty. -/
theorem entityRun_spec {userId : ℤ} (hport : ctx.creditPort) (huser : job.userId = some userId) :
    wp (.recording NothingLeft) (entityRun ctx periodKey job) (fun r tr => Decided job.jobId r.2 tr) [] := by
  have spec : wps (.recording NothingLeft) (processEntity ctx periodKey job) (fun _ l tr => Decided job.jobId l tr)
      (fun _ l tr => Decided job.jobId l tr) ⟨job, { jobId := job.jobId }⟩ [] := by
    unfold processEntity
    rw [wps_bind, wps_act]
    refine wpe_mono (loadPersistedJob_recording (E := fun _ _ => False)) ?_ fun _ _ h => h.elim
    rintro row tr ⟨hc, hasked⟩
    rcases row.filter isFinished with _ | done
    · rw [wps_tryCatch]
      refine wps_mono (attempt_recording hport huser hc hasked) (fun _ _ _ h => h) fun e l tr h => ?_
      rcases h with h | h | h
      · refine wps_mono (giveUp_recording (I := fun tr => ¬ Asked tr) ?_ ?_ h) ?_ ?_
        · exact fun tr ev job h hop => not_asked_append h fun _ _ h' => by rw [hop] at h'; cases h'
        · exact fun tr ev event h _ hop => not_asked_append h fun _ _ h' => by rw [hop] at h'; cases h'
        · exact fun _ _ _ h => decided_of_unasked h.1
        · exact fun _ _ _ h => decided_of_unasked h.1
      · exact wps_mono (wps_wentOn h) (fun _ _ _ h => decided_of_wentOn h) fun _ _ _ h => decided_of_wentOn h
      · refine wps_mono (giveUp_recording (I := Idle job.jobId) ?_ ?_ h) ?_ ?_
        · exact fun tr ev job h hop => idle_append h (by rw [hop]; exact id) fun h' => by rw [hop] at h'; cases h'
        · exact fun tr ev event h hfailed hop => idle_append h (by rw [hop]; exact id) fun h' =>
            by rw [hop] at h'; cases h'; cases hfailed
        · exact fun _ _ _ h => decided_of_idle h.1 h.2
        · exact fun _ _ _ h => decided_of_idle h.1 h.2
    · rw [wps_act]
      refine wpe_ask.2 ⟨trivial, fun _ _ => ?_, fun _ _ _ _ => ?_⟩
      · exact decided_of_unasked (not_asked_append hasked fun _ _ h => by cases h)
      · exact decided_of_unasked (not_asked_append hasked fun _ _ h => by cases h)
  refine wp_mono (fun r tr h => ?_) spec
  obtain ⟨e | a, l⟩ := r
  · exact h
  · exact h

/-- **The refusal of a job whose owner has nothing left**, whatever the repository and the event stream do: nothing is done
for the job and it ends FAILED, unless the announcement of the refusal raises and the one of the download does not. -/
theorem refused_iff {userId : ℤ} {r : Except PyError Unit} (hport : ctx.creditPort) (huser : job.userId = some userId)
    (hrun : Run (entityRun ctx periodKey job) tr (r, l)) (hleft : ∀ ev ∈ tr, NothingLeft ev) (hasked : Asked tr) :
    Refused tr l.job ↔ ¬ (RefusalLost job.jobId tr ∧ Downloading job.jobId tr) :=
  wp_recording_run (Q := fun r tr => Decided job.jobId r.2 tr) (entityRun_spec hport huser) hrun hleft hasked

end Run

/-! ## Concrete runs -/

section Concrete

/-- Ports whose wallet is empty, where every call that `down` names raises. -/
def emptyWallet (down : JobOp → Bool) : Env JobSig Unit where
  reply _ op :=
    match op with
    | .getAvailableTotal _ _ => .ok (some 0)
    | op => (portsDown down).reply () op
  effect _ _ := ()

/-- What a worker does that is delivered the job meanwhile. -/
def refusedRun (down : JobOp → Bool) : List (Event JobSig) × Except PyError Unit × Locals :=
  (entityRun wiredContext "2026-07" deliveredJob).play (emptyWallet down) ()

/-- Rows cannot be written and events cannot be published. -/
def persistenceDown : JobOp → Bool
  | .updateJob _ | .publishEvent _ => true
  | _ => false

/-- The announcement of the refusal, and nothing else, raises. -/
def refusalDown : JobOp → Bool
  | .publishEvent event => event = refusalEvent "job-1"
  | _ => false

instance decidableIsWork : DecidablePred IsWork := fun op => by
  unfold IsWork
  split
  · infer_instance
  · infer_instance
  · infer_instance
  · infer_instance
  · infer_instance

instance decidableNothingLeft : DecidablePred NothingLeft
  | ⟨.getAvailableTotal _ _, .ok (some available), _, _⟩ => Int.decLe available 0
  | ⟨.getAvailableTotal _ _, .ok none, _, _⟩ => isFalse id
  | ⟨.getAvailableTotal _ _, .error _, _, _⟩ => isFalse id
  | ⟨.getTier _, .error _, _, _⟩ => isFalse id
  | ⟨.getTier _, .ok _, _, _⟩ => isTrue trivial
  | ⟨.uuid4, _, _, _⟩ => isTrue trivial
  | ⟨.utcNow, _, _, _⟩ => isTrue trivial
  | ⟨.insertJob _, _, _, _⟩ => isTrue trivial
  | ⟨.updateJob _, _, _, _⟩ => isTrue trivial
  | ⟨.getJob _, _, _, _⟩ => isTrue trivial
  | ⟨.publishJob _ _, _, _, _⟩ => isTrue trivial
  | ⟨.publishEvent _, _, _, _⟩ => isTrue trivial
  | ⟨.consume _ _ _ _, _, _, _⟩ => isTrue trivial
  | ⟨.file _, _, _, _⟩ => isTrue trivial
  | ⟨.uploads _, _, _, _⟩ => isTrue trivial

theorem asked_refusedRun (down : JobOp → Bool) (h : ∃ ev ∈ (refusedRun down).1, ev.op = .getAvailableTotal 7 "2026-07") :
    Asked (refusedRun down).1 := by
  obtain ⟨ev, hev, hop⟩ := h
  exact ⟨ev, hev, 7, "2026-07", hop⟩

/-- What was published and did not raise. -/
def isPublished (ev : Event JobSig) : Bool :=
  match ev.op, ev.out with
  | .publishEvent _, .ok _ => true
  | _, _ => false

/-- Where nothing can be written or published the job is refused all the same. -/
theorem refused_iff_persistence_down :
    Refused (refusedRun persistenceDown).1 (refusedRun persistenceDown).2.2.job := by
  refine (@refused_iff wiredContext ("2026-07") _ _ _ _ _ rfl rfl (run_play (emptyWallet persistenceDown) _ ())
    (by decide +kernel) (asked_refusedRun _ ⟨_, .tail _ (.tail _ (.head _)), rfl⟩)).2 fun hslip => ?_
  have hnone : ∀ ev ∈ (refusedRun persistenceDown).1, isPublished ev = false := by decide +kernel
  have hpublished := hnone _ hslip.2
  cases hpublished

/-- A job that cannot be paid for is downloaded and converted when the announcement of its refusal raises. -/
theorem unpaid_job_converted :
    ¬ ∀ (ctx : WorkerContext) (periodKey : String) (job : ConversionJob) (userId : ℤ) (tr : List (Event JobSig))
      (r : Except PyError Unit) (l : Locals), ctx.creditPort → job.userId = some userId →
      Run (entityRun ctx periodKey job) tr (r, l) → (∀ ev ∈ tr, NothingLeft ev) → Asked tr → Refused tr l.job := by
  intro h
  have hrefused := h wiredContext "2026-07" deliveredJob 7 _ _ _ rfl rfl (run_play (emptyWallet refusalDown) _ ())
    (by decide +kernel) (asked_refusedRun refusalDown ⟨_, .tail _ (.tail _ (.head _)), rfl⟩)
  have hwork : ∃ ev ∈ (refusedRun refusalDown).1, IsWork ev.op := by decide +kernel
  obtain ⟨ev, hev, hw⟩ := hwork
  exact hrefused.1 ev hev hw

end Concrete

end Transform.Worker
