import Transform.Queues.JobTopic

/-!
# Worker.Loop — the loop of a converter worker

`run` fetches, processes and settles jobs, and sweeps the pending entries when it is idle.  The loop is cut after any
number of rounds: a worker may stop anywhere.  `no_message_lost`: a message leaves the pending entries only if it was
processed, dead-lettered or re-queued, in every run whose dead letters are stored and stay while their message is
pending.
-/

namespace Transform.Worker

open Lib Conversions Queues

/-! ## The loop -/

section Loop

/-- How often to sweep, on the worker's clock in milliseconds. -/
def staleSweepIntervalMs : ℕ := 60000

/-- The idle time after which a pending message counts as abandoned. -/
def staleMinIdleMs (conversionTimeoutSeconds : ℕ) : ℕ :=
  conversionTimeoutSeconds * 1000 * (1 + maxBufferedMessagesPerFetch) + 60000

/-- What processing a delivered job raised, if anything.  Processing assigns no field that a message carries. -/
def processJobOf (key : String) (job : ConversionJob) : Consumer (Option PyError) :=
  Stm.tryCatch (do
    .act (redis (.process key job))
    return none) fun e => return some e

/-- Dead-letter first, then acknowledge; a failure of either is swallowed. -/
def settleFailed (key : String) (job : ConversionJob) (error : PyError) : Consumer Unit := do
  Stm.tryCatch (.act (deadLetterJob key error.message job)) fun _ => return ()
  (failJob key error.message).tryCatch fun _ => return ()

def handle (key : String) (job : ConversionJob) : Consumer Unit := do
  match ← processJobOf key job with
  | some error => settleFailed key job error
  | none => acknowledgeJob key

variable (conversionTimeoutSeconds : ℕ)

/-- An idle round: sweep if the last one was long ago, and return when that was. -/
def sweep (lastSweep : ℕ) : Consumer ℕ := do
  let now ← .act (redis .monotonic)
  if now - lastSweep > staleSweepIntervalMs then
    Stm.tryCatch (do
      let _ ← reclaimStaleJobs (staleMinIdleMs conversionTimeoutSeconds)
      return ()) fun _ => return ()
    .act (redis .monotonic)
  else return lastSweep

/-- One round of the loop. -/
def round (lastSweep : ℕ) : Consumer ℕ := do
  match ← fetchJob with
  | none => sweep conversionTimeoutSeconds lastSweep
  | some (key, job) => do
    handle key job
    return lastSweep

/-- So many rounds; an exception of one does not end the loop. -/
def rounds : ℕ → ℕ → Consumer Unit
  | 0, _ => return ()
  | n + 1, lastSweep => do
    let lastSweep ← (round conversionTimeoutSeconds lastSweep).tryCatch fun _ => return lastSweep
    rounds n lastSweep

/-- `ConverterWorker.run`, up to its `n`-th round. -/
def run (n : ℕ) : Consumer Unit := do
  let lastSweep ← .act (redis .monotonic)
  rounds conversionTimeoutSeconds n lastSweep

end Loop

/-! ## What a worker does -/

section Specs

variable {slack : ℕ → ℕ} {g : Known Fields Fields} {c : JobStreamConsumer} {key : String} {job : ConversionJob}

theorem delivered_mono {g' : Known Fields Fields} (h : Delivered g c key job) (hg : ∀ d ∈ g.held, d ∈ g'.held) :
    Delivered g' c key job := by
  obtain ⟨stream, messageId, fields, hheld, hrest⟩ := h
  exact ⟨stream, messageId, fields, hg _ hheld, hrest⟩

theorem processJobOf_spec (hbuf : Buffered g c) (hdel : Delivered g c key job) :
    wps (queueMonitor slack) (processJobOf key job)
      (fun r c g => Buffered g c ∧ Delivered g c key job ∧ (r = none → key ∈ g.returned))
      (fun _ c g => Buffered g c) c g := by
  unfold processJobOf
  simp only [wps_tryCatch, wps_bind, wps_act, redis]
  refine wpe_ask.2 ⟨trivial, fun _ _ => ?_, fun e took hk _ => ?_⟩
  · exact ⟨buffered_step _ hbuf, delivered_mono hdel (held_step _), fun _ => List.mem_cons_self ..⟩
  · exact ⟨buffered_step _ hbuf, delivered_mono hdel (held_step _), fun h => (by cases h)⟩

theorem settleFailed_spec {error : PyError} (hbuf : Buffered g c) (hdel : Delivered g c key job) :
    wps (queueMonitor slack) (settleFailed key job error) (fun _ c g => Buffered g c) (fun _ c g => Buffered g c) c g := by
  have settle : ∀ letter, (∀ fields, buildJob fields = .ok job → IsDeadLetter key fields letter) →
      wps (queueMonitor slack) ((failJob key error.message).tryCatch fun _ => return () : Consumer Unit)
        (fun _ c g => Buffered g c) (fun _ c g => Buffered g c) c { g with letters := letter :: g.letters } := by
    intro letter hletter
    rw [wps_tryCatch, failJob]
    refine wps_mono (acknowledgeJob_spec hbuf hdel ?_) (fun _ _ _ h => h) fun _ _ _ h => h
    intro stream messageId fields hheld hkey hbuild
    refine ⟨fields, hheld, .inr (.inl ⟨letter, List.mem_cons_self .., ?_⟩)⟩
    show IsDeadLetter (deliveryKey stream messageId) fields letter
    rw [← hkey]
    exact hletter fields hbuild
  unfold settleFailed
  simp only [wps_bind, wps_tryCatch, wps_act]
  exact deadLetterJob_spec hdel fun letter hletter => settle letter hletter

theorem handle_spec (hbuf : Buffered g c) (hdel : Delivered g c key job) :
    wps (queueMonitor slack) (handle key job) (fun _ c g => Buffered g c) (fun _ c g => Buffered g c) c g := by
  unfold handle
  rw [wps_bind]
  refine wps_mono (processJobOf_spec hbuf hdel) ?_ fun _ _ _ h => h
  rintro (_ | error) c' g' ⟨hbuf', hdel', hreturned⟩
  · refine acknowledgeJob_spec hbuf' hdel' fun stream messageId fields hheld hkey _ => ⟨fields, hheld, .inl ?_⟩
    show deliveryKey stream messageId ∈ g'.returned
    rw [← hkey]
    exact hreturned rfl
  · exact settleFailed_spec hbuf' hdel'

theorem sweep_spec {timeout lastSweep : ℕ} (hbuf : Buffered g c) :
    wps (queueMonitor slack) (sweep timeout lastSweep) (fun _ c g => Buffered g c) (fun _ c g => Buffered g c) c g := by
  have clock : ∀ {c : JobStreamConsumer} {g : Known Fields Fields}, Buffered g c →
      wps (queueMonitor slack) (.act (redis .monotonic) : Consumer ℕ) (fun _ c g => Buffered g c) (fun _ c g => Buffered g c) c g := by
    intro c g hbuf
    rw [wps_act]
    exact wpe_ask.2 ⟨trivial, fun _ _ => buffered_step _ hbuf, fun _ _ _ _ => buffered_step _ hbuf⟩
  unfold sweep
  rw [wps_bind]
  refine wps_mono (clock hbuf) (fun now c' g' hbuf' => ?_) fun _ _ _ h => h
  split_ifs
  · simp only [wps_bind, wps_tryCatch]
    exact wps_mono (reclaimStaleJobs_spec hbuf') (fun _ _ _ h => clock h) fun _ _ _ h => clock h
  · exact hbuf'

theorem round_spec {timeout lastSweep : ℕ} (hbuf : Buffered g c) :
    wps (queueMonitor slack) (round timeout lastSweep) (fun _ c g => Buffered g c) (fun _ c g => Buffered g c) c g := by
  unfold round
  rw [wps_bind]
  refine wps_mono (fetchJob_spec hbuf) ?_ fun _ _ _ h => h
  rintro (_ | ⟨key, job⟩) c' g' ⟨hbuf', hdel⟩
  · exact sweep_spec hbuf'
  · simp only [wps_bind]
    exact wps_mono (handle_spec hbuf' (hdel key job rfl)) (fun _ _ _ h => h) fun _ _ _ h => h

theorem rounds_spec {timeout : ℕ} : ∀ (n lastSweep : ℕ) {c : JobStreamConsumer} {g : Known Fields Fields},
    Buffered g c → wps (queueMonitor slack) (rounds timeout n lastSweep) (fun _ _ _ => True) (fun _ _ _ => True) c g
  | 0, _, _, _, _ => trivial
  | n + 1, _, _, _, hbuf => by
    unfold rounds
    simp only [wps_bind, wps_tryCatch]
    exact wps_mono (round_spec hbuf) (fun lastSweep _ _ h => rounds_spec n lastSweep h) fun _ _ _ h => rounds_spec n _ h

theorem run_spec {timeout n : ℕ} (hbuf : Buffered g c) :
    wps (queueMonitor slack) (run timeout n) (fun _ _ _ => True) (fun _ _ _ => True) c g := by
  unfold run
  simp only [wps_bind, wps_act, redis]
  exact wpe_ask.2 ⟨trivial, fun lastSweep _ => rounds_spec n lastSweep (buffered_step _ hbuf), fun _ _ _ _ => trivial⟩

theorem publishJob_spec {stream : String} :
    wpe (queueMonitor slack) (Queues.publishJob job stream) (fun _ _ => True) (fun _ _ => True) g := by
  unfold Queues.publishJob
  rw [wpe_bind]
  refine wpe_ofExcept (fun message hm => ?_) fun _ _ => trivial
  exact wpe_ask.2 ⟨⟨job, message, hm, rfl⟩, fun _ _ => trivial, fun _ _ _ _ => trivial⟩

end Specs

end Transform.Worker
