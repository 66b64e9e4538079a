import Transform.Worker.Tally

/-!
# Worker.Outcome — how a run of `process_job` can end

The specification of `process_job` (`processJob_spec`), stage by stage.  A run passes through two phases:
`Uncharged`, up to the upload, where the row carries the price only if a write took effect after the price was
recorded; and `Charged`, from the upload on, where the entity is COMPLETED.  `Final` is what both leave.
-/

namespace Transform.Worker

open Lib Billing Conversions

/-! ## The phases of a run -/

section Phases

/-- The job has not been charged.  `p` is the price, once recorded; `c0` is what the entity carried before. -/
structure Uncharged (c0 : ℤ) (p : Option ℤ) (g : Tally) : Prop where
  asked : g.asked = false
  finished : g.finished = false
  consumed : g.consumed = false
  charged : g.charged = 0
  completedWrite : g.completedWrite = false
  priced : g.priced = p.isSome
  price_pos : ∀ c ∈ p, 0 < c
  row_status : ∀ row ∈ g.row, row.status ≠ .completed
  row_credits : ∀ row ∈ g.row, row.creditsUsed = if g.pricedWrite then p.getD c0 else c0
  row_of_priced : g.pricedWrite → ∃ row, g.row = some row
  priced_of_write : g.pricedWrite → g.priced
  failed_of_row : ∀ row ∈ g.row, row.status = .failed → g.failedWrite
  failed_of_priced : g.pricedFailedWrite → g.failedWrite

/-- The output is stored and the charge has been asked, at the price `c`. -/
structure Charged (c0 c : ℤ) (g : Tally) : Prop where
  finished : g.finished = false
  price_pos : 0 < c
  charged : g.charged = if g.consumed then c else 0
  priced : g.priced = true
  failedWrite : g.failedWrite = false
  pricedFailedWrite : g.pricedFailedWrite = false
  completedWrite : g.completedWrite ↔ ∃ row ∈ g.row, row.status = .completed
  priced_of_completed : g.completedWrite → g.pricedWrite
  row_status : ∀ row ∈ g.row, row.status ≠ .failed
  row_credits : ∀ row ∈ g.row, row.creditsUsed = if g.pricedWrite then c else c0
  row_of_priced : g.pricedWrite → ∃ row, g.row = some row

/-- The credits recorded on the row are the ones charged, none where the job FAILED, and never more. -/
def Tally.Honest (g : Tally) : Prop :=
  ∀ row ∈ g.row,
    (row.status = .completed ∨ row.status = .failed →
      row.creditsUsed = g.charged ∧ (row.status = .failed → row.creditsUsed = 0)) ∧
    row.creditsUsed ≤ g.charged

/-- No write took effect after the price was recorded, or the charge returned and none of them wrote FAILED. -/
def Tally.Settled (g : Tally) : Prop :=
  g.pricedWrite = false ∨ g.consumed ∧ g.pricedFailedWrite = false

/-- What a run leaves. -/
structure Final (c0 : ℤ) (g : Tally) : Prop where
  completed_iff : g.consumed → (g.row.map (·.status) = some .completed ↔
    g.completedWrite ∧ ¬(g.announceLost ∧ g.failedWrite))
  honest_iff : c0 = 0 → (g.Honest ↔ g.Settled)
  charged_nonneg : 0 ≤ g.charged

variable {c0 c : ℤ} {p : Option ℤ} {g : Tally} {job : ConversionJob}

theorem uncharged_start : Uncharged c0 none {} := by
  constructor <;> simp

/-- Without a charge the row is honest exactly if it does not carry the price. -/
theorem final_of_uncharged (h : Uncharged c0 p g) : Final c0 g where
  completed_iff hc := by
    rw [h.consumed] at hc
    cases hc
  honest_iff h0 := by
    subst h0
    unfold Tally.Honest Tally.Settled
    simp only [h.consumed, h.charged, Bool.false_eq_true, false_and, or_false]
    constructor
    · intro hh
      by_contra hw
      rw [Bool.not_eq_false] at hw
      obtain ⟨row, hrow⟩ := h.row_of_priced hw
      obtain ⟨c, hc⟩ : ∃ c, p = some c := by
        have := h.priced_of_write hw
        rw [h.priced] at this
        exact Option.isSome_iff_exists.1 this
      have hpos := h.price_pos c hc
      have hle := (hh row hrow).2
      rw [h.row_credits row hrow, if_pos hw, hc, Option.getD_some] at hle
      omega
    · intro hw row hrow
      have h0 := h.row_credits row hrow
      rw [hw, if_neg (by simp)] at h0
      exact ⟨fun _ => ⟨h0, fun _ => h0⟩, by omega⟩
  charged_nonneg := by rw [h.charged]

theorem row_completed_iff (h : Charged c0 c g) : g.row.map (·.status) = some .completed ↔ g.completedWrite := by
  rw [h.completedWrite, Option.map_eq_some_iff]
  rfl

/-- With the terminal write still COMPLETED, the row is honest exactly if it lacks the price or was paid. -/
theorem final_of_charged (h : Charged c0 c g) : Final c0 g where
  completed_iff _ := by
    rw [row_completed_iff h, h.failedWrite]
    simp
  honest_iff h0 := by
    subst h0
    unfold Tally.Honest Tally.Settled
    simp only [h.pricedFailedWrite, and_true]
    constructor
    · intro hh
      by_contra hn
      obtain ⟨hw, hc⟩ : g.pricedWrite = true ∧ g.consumed = false := by simpa using hn
      obtain ⟨row, hrow⟩ := h.row_of_priced hw
      have hle := (hh row hrow).2
      rw [h.row_credits row hrow, if_pos hw, h.charged, hc] at hle
      have hpos := h.price_pos
      simp only [Bool.false_eq_true, if_false] at hle
      omega
    · intro hs row hrow
      have hr := h.row_credits row hrow
      have hg := h.charged
      have hpos := h.price_pos
      have hnf := h.row_status row hrow
      rcases Bool.eq_false_or_eq_true g.pricedWrite with hw | hw
      · have hc : g.consumed = true := by simpa [hw] using hs
        rw [hw, if_pos rfl] at hr
        rw [hc, if_pos rfl] at hg
        exact ⟨fun _ => ⟨by omega, fun hf => absurd hf hnf⟩, by omega⟩
      · have hnc : row.status ≠ .completed := fun hc => by
          have := h.priced_of_completed (h.completedWrite.2 ⟨row, hrow, hc⟩)
          rw [hw] at this
          cases this
        rw [hw, if_neg (by simp)] at hr
        refine ⟨fun ht => ?_, ?_⟩
        · rcases ht with ht | ht
          · exact absurd ht hnc
          · exact absurd ht hnf
        · rw [hr, hg]
          split_ifs <;> omega
  charged_nonneg := by
    have hpos := h.price_pos
    rw [h.charged]
    split_ifs <;> omega

theorem final_of_overwritten (h : Charged c0 c g) (hl : g.announceLost) (hj : job.status = .failed)
    (hc : job.creditsUsed = c) : Final c0 (g.write job) where
  completed_iff _ := by
    simp [Tally.write, hj, hl]
  honest_iff h0 := by
    have hpos := h.price_pos
    unfold Tally.Honest Tally.Settled
    simp only [Tally.write, h.priced, hj, Option.mem_def, Option.some.injEq]
    constructor
    · intro hh
      have := ((hh job rfl).1 (.inr hj)).2 hj
      omega
    · intro hs
      simp at hs
  charged_nonneg := (final_of_charged h).charged_nonneg

end Phases

/-! ## How the phases move -/

section Moves

/-- The entity of a worker: that of the delivered job, at `credits`, in a status a worker writes. -/
structure Held (job0 : ConversionJob) (credits : ℤ) (job : ConversionJob) : Prop where
  jobId : job.jobId = job0.jobId
  batchId : job.batchId = job0.batchId
  workflowId : job.workflowId = job0.workflowId
  credits : job.creditsUsed = credits

/-- The entity while the job runs: PROCESSING, unless the pre-check has failed it. -/
structure Running (job0 : ConversionJob) (credits : ℤ) (job : ConversionJob) (g : Tally) : Prop
    extends Held job0 credits job where
  status : job.status = .processing ∨ job.status = .failed
  failed_of_write : g.failedWrite → job.status = .failed

variable {job0 job row : ConversionJob} {c0 c : ℤ} {p : Option ℤ} {g : Tally}

@[simp] theorem markFailed_status (m : String) : (markFailed m job).status = .failed := by
  unfold markFailed ConversionJob.fail
  split_ifs <;> rfl

theorem held_markFailed (m : String) (h : Held job0 c job) : Held job0 c (markFailed m job) := by
  unfold markFailed ConversionJob.fail
  split_ifs <;> exact ⟨h.jobId, h.batchId, h.workflowId, h.credits⟩

theorem held_progress (n : ℤ) (h : Held job0 c job) : Held job0 c { job with progress := n } :=
  ⟨h.jobId, h.batchId, h.workflowId, h.credits⟩

theorem running_progress (n : ℤ) (h : Running job0 c job g) : Running job0 c { job with progress := n } g :=
  ⟨held_progress n h.toHeld, h.status, h.failed_of_write⟩

theorem running_markFailed (m : String) (h : Held job0 c job) : Running job0 c (markFailed m job) g :=
  ⟨held_markFailed m h, .inr (markFailed_status m), fun _ => markFailed_status m⟩

theorem permitted_update (h : Held job0 c job)
    (hs : job.status = .processing ∨ job.status = .completed ∨ job.status = .failed) (hf : g.finished = false) :
    Permitted job0 g (.updateJob job) :=
  ⟨h.jobId, h.batchId, h.workflowId, hs, hf⟩

theorem uncharged_write (hu : Uncharged c0 p g) (hj : Running job0 (p.getD c0) job g) :
    Uncharged c0 p (g.write job) where
  asked := hu.asked
  finished := hu.finished
  consumed := hu.consumed
  charged := hu.charged
  completedWrite := by
    rcases hj.status with h | h <;> simp [Tally.write, hu.completedWrite, h]
  priced := hu.priced
  price_pos := hu.price_pos
  row_status row hrow := by
    obtain rfl : job = row := by simpa [Tally.write] using hrow
    rcases hj.status with h | h <;> simp [h]
  row_credits row hrow := by
    obtain rfl : job = row := by simpa [Tally.write] using hrow
    rw [hj.credits]
    split_ifs with hw
    · rfl
    · have hp : p = none := by
        have hn : g.priced = false := by
          simp only [Tally.write, Bool.or_eq_true, not_or, Bool.not_eq_true] at hw
          exact hw.2
        rw [hu.priced] at hn
        exact Option.isSome_eq_false_iff.1 hn |> Option.isNone_iff_eq_none.1
      rw [hp, Option.getD_none]
  row_of_priced _ := ⟨job, rfl⟩
  priced_of_write hw := by
    simp only [Tally.write, Bool.or_eq_true] at hw
    exact hw.elim hu.priced_of_write id
  failed_of_row row hrow hf := by
    obtain rfl : job = row := by simpa [Tally.write] using hrow
    simp [Tally.write, hf]
  failed_of_priced h := by
    simp only [Tally.write, Bool.or_eq_true, Bool.and_eq_true] at h ⊢
    exact h.imp hu.failed_of_priced And.right

theorem running_write (hj : Running job0 c job g) : Running job0 c job (g.write job) :=
  ⟨hj.toHeld, hj.status, fun h => by
    simp only [Tally.write, Bool.or_eq_true, decide_eq_true_eq] at h
    exact h.elim hj.failed_of_write id⟩

theorem charged_write (hg : Charged c0 c g) (hj : Held job0 c job) (hs : job.status = .completed) :
    Charged c0 c (g.write job) where
  finished := hg.finished
  price_pos := hg.price_pos
  charged := hg.charged
  priced := hg.priced
  failedWrite := by simp [Tally.write, hg.failedWrite, hs]
  pricedFailedWrite := by simp [Tally.write, hg.pricedFailedWrite, hs]
  completedWrite := by simp [Tally.write, hs]
  priced_of_completed _ := by simp [Tally.write, hg.priced]
  row_status row hrow := by
    obtain rfl : job = row := by simpa [Tally.write] using hrow
    simp [hs]
  row_credits row hrow := by
    obtain rfl : job = row := by simpa [Tally.write] using hrow
    simp [Tally.write, hg.priced, hj.credits]
  row_of_priced _ := ⟨job, rfl⟩

theorem uncharged_announce {event : JobEvent} {ok : Bool} (hu : Uncharged c0 p g)
    (he : event.progress ≠ 75) : Uncharged c0 p (g.announce event ok) := by
  have hpriced : (g.announce event ok).priced = g.priced := by
    simp [Tally.announce, he]
  exact { hu with priced := hpriced.trans hu.priced, priced_of_write := fun h => hpriced ▸ hu.priced_of_write h }

theorem uncharged_price {event : JobEvent} {ok : Bool} (hu : Uncharged c0 none g) (hc : 0 < c)
    (hs : event.status = .processing) (hp : event.progress = 75) :
    Uncharged c0 (some c) (g.announce event ok) := by
  have hw : g.pricedWrite = false := by
    by_contra h
    have := hu.priced_of_write (by simpa using h)
    rw [hu.priced] at this
    cases this
  exact { hu with
    priced := by simp [Tally.announce, hs, hp]
    price_pos := fun d hd => by
      obtain rfl : c = d := by simpa using hd
      exact hc
    row_credits := fun row hrow => by
      have := hu.row_credits row hrow
      simpa [Tally.announce, hw] using this
    row_of_priced := fun h => by
      rw [show (g.announce event ok).pricedWrite = g.pricedWrite from rfl, hw] at h
      cases h
    priced_of_write := fun _ => by simp [Tally.announce, hs, hp] }

theorem announce_failed {event : JobEvent} {ok : Bool} (h : event.status = .failed) : g.announce event ok = g := by
  simp [Tally.announce, h]

theorem write_write : (g.write job).write job = g.write job := by
  simp [Tally.write]

theorem running_announce {event : JobEvent} {ok : Bool} (h : Running job0 c job g) :
    Running job0 c job (g.announce event ok) :=
  ⟨h.toHeld, h.status, h.failed_of_write⟩

/-- The upload done and the entity still PROCESSING: no FAILED row was ever written. -/
theorem charged_of_uncharged (hu : Uncharged c0 (some c) g) (hj : Running job0 c job g)
    (hs : job.status = .processing) : Charged c0 c g := by
  have hf : g.failedWrite = false := by
    by_contra h
    have := hj.failed_of_write (by simpa using h)
    rw [hs] at this
    cases this
  exact {
    finished := hu.finished
    price_pos := hu.price_pos c rfl
    charged := by rw [hu.charged, hu.consumed]; rfl
    priced := hu.priced
    failedWrite := hf
    pricedFailedWrite := by
      by_contra h
      have := hu.failed_of_priced (by simpa using h)
      rw [hf] at this
      cases this
    completedWrite := by
      rw [hu.completedWrite]
      refine ⟨fun h => (by cases h), ?_⟩
      rintro ⟨row, hrow, h⟩
      exact absurd h (hu.row_status row hrow)
    priced_of_completed := fun h => by
      rw [hu.completedWrite] at h
      cases h
    row_status := fun row hrow h => by
      have := hu.failed_of_row row hrow h
      rw [hf] at this
      cases this
    row_credits := hu.row_credits
    row_of_priced := hu.row_of_priced }

theorem charged_ask (h : Charged c0 c g) : Charged c0 c { g with asked := true } := { h with }

theorem charged_consume (h : Charged c0 c g) (hc : g.consumed = false) :
    Charged c0 c { g with asked := true, consumed := true, charged := g.charged + c } := by
  have h0 : g.charged = 0 := by
    rw [h.charged, hc]
    rfl
  exact { h with charged := by simp [h0] }

theorem charged_announce {event : JobEvent} {ok : Bool} (h : Charged c0 c g) :
    Charged c0 c (g.announce event ok) :=
  { h with priced := by simp [Tally.announce, h.priced] }

end Moves

/-! ## Under any monitor -/

section Generic

variable {G α : Type} {M : Monitor JobSig G} {ctx : WorkerContext} {job : ConversionJob} {l : Locals} {g : G} {I : G → Prop}

theorem wpe_onFreshSession {p : Py α} {Q : α → G → Prop} {E : PyError → G → Prop}
    (hp : ∀ g, I g → wpe M p Q (fun _ => I) g) (hE : ∀ e g, I g → E e g) (hg : I g) :
    wpe M (onFreshSession p) Q E g := by
  unfold onFreshSession
  rw [wpe_tryCatch]
  refine wpe_mono (hp g hg) (fun _ _ h => h) fun e g hg => ?_
  split_ifs
  · exact wpe_mono (hp g hg) (fun _ _ h => h) hE
  · exact hE e g hg

/-- Writing the row keeps what every single write keeps, and never raises. -/
theorem wpe_updateAttempts {E : PyError → G → Prop}
    (hone : ∀ g, I g → wpe M (call (.updateJob job)) (fun _ => I) (fun _ => I) g) :
    ∀ (n : ℕ) {g : G}, I g → wpe M (updateAttempts job n) (fun _ => I) E g
  | 0, _, hg => hg
  | n + 1, g, hg => by
    unfold updateAttempts
    rw [wpe_tryCatch]
    exact wpe_onFreshSession hone (fun _ _ hg => wpe_updateAttempts hone n hg) hg

theorem wps_persist_of {terminal : Bool} {Q : Unit → Locals → G → Prop} {E : PyError → Locals → G → Prop} (hg : I g)
    (hone : ∀ g, I g → wpe M (call (.updateJob l.job)) (fun _ => I) (fun _ => I) g) (hQ : ∀ g, I g → Q () l g) :
    wps M (persist ctx terminal) Q E l g := by
  unfold persist
  simp only [wps_bind, wps_get, wps_act]
  generalize (if terminal then 2 else 1) = n
  split_ifs
  · exact wpe_mono (wpe_updateAttempts (E := fun e => E e l) hone _ hg) (fun _ g h => hQ g h) fun _ _ h => h
  · exact hQ g hg

theorem wps_transition {f : ConversionJob → Except PyError ConversionJob} {Q : Unit → Locals → G → Prop}
    {E : PyError → Locals → G → Prop} :
    wps M (transition f) Q E l g ↔
      (∀ job, f l.job = .ok job → Q () { l with job } g) ∧ ∀ e, f l.job = .error e → E e l g := by
  unfold transition
  rw [wps_tryModify]
  rcases f l.job with e | job <;> simp [Except.map]

end Generic

/-! ## The stages -/

section Stages

variable {job0 job : ConversionJob} {ctx : WorkerContext} {periodKey : String} {l : Locals} {g : Tally}
  {α : Type} {E : PyError → Locals → Tally → Prop}

theorem wps_persist {I : Tally → Prop} {terminal : Bool} {Q : Unit → Locals → Tally → Prop} (hg : I g)
    (hp : ∀ g, I g → Permitted job0 g (.updateJob l.job)) (hw : ∀ g, I g → I (g.write l.job))
    (hQ : ∀ g, I g → Q () l g) : wps (jobMonitor job0) (persist ctx terminal) Q E l g := by
  refine wps_persist_of hg (fun g hg => wpe_ask.2 ⟨hp g hg, fun _ _ => hw g hg, fun e took _ _ => ?_⟩) hQ
  rcases took with _ | _
  · exact hg
  · exact hw g hg

theorem wps_announce {event : JobEvent} {Q : Unit → Locals → Tally → Prop} (hQ : Q () l (g.announce event true))
    (hE : ∀ e, E e l (g.announce event false)) :
    wps (jobMonitor job0) (.act (call (.publishEvent event))) Q E l g :=
  wps_act.2 (wpe_ask.2 ⟨trivial, fun _ _ => hQ, fun e _ _ _ => hE e⟩)

theorem wps_publish {phase : EventContext → EventContext} {Q : Unit → Locals → Tally → Prop}
    (hQ : Q () { l with event := phase l.event } (g.announce (phase l.event).toDict true))
    (hE : ∀ e, E e { l with event := phase l.event } (g.announce (phase l.event).toDict false)) :
    wps (jobMonitor job0) (publish phase) Q E l g := by
  unfold publish
  rw [wps_bind, wps_modify, wps_bind, wps_get]
  exact wps_announce hQ hE

theorem wps_quiet {β : Type} {p : Py β} (hp : p.Only Quiet) {f : β → Body α} {Q : α → Locals → Tally → Prop}
    (hQ : ∀ b, wps (jobMonitor job0) (f b) Q E l g) (hE : ∀ e, E e l g) :
    wps (jobMonitor job0) (.act p >>= f) Q E l g := by
  rw [wps_bind, wps_act]
  exact wpe_quiet hp hQ hE

theorem creditPreCheck_spec {c0 : ℤ} (hu : Uncharged c0 none g) (hj : Running job0 c0 l.job g) :
    wps (jobMonitor job0) (creditPreCheck ctx periodKey)
      (fun _ l' g' => l'.event = l.event ∧ Uncharged c0 none g' ∧ Running job0 c0 l'.job g') E l g := by
  unfold creditPreCheck
  simp only [wps_bind, wps_get]
  rcases l.job.userId with _ | userId
  · exact ⟨rfl, hu, hj⟩
  · simp only
    split_ifs with hport
    · exact ⟨rfl, hu, hj⟩
    · rw [wps_tryCatch]
      refine wps_quiet (getAvailableTotal_only _ _) (fun available => ?_) fun _ => ⟨rfl, hu, hj⟩
      refine wps_quiet (getTier_only _) (fun tier => ?_) fun _ => ⟨rfl, hu, hj⟩
      split_ifs
      · have hj' : Running job0 c0 { markFailed exhaustedMessage l.job with progress := 100 } g :=
          running_progress 100 (running_markFailed _ hj.toHeld)
        rw [wps_bind, assignJob, wps_modify, wps_bind, assignJob, wps_modify, wps_bind]
        refine wps_persist (I := fun g => Uncharged c0 none g ∧
          Running job0 c0 { markFailed exhaustedMessage l.job with progress := 100 } g) ⟨hu, hj'⟩ ?_ ?_ ?_
        · rintro g ⟨hu, hj⟩
          exact permitted_update hj.toHeld (.inr (.inr (markFailed_status _))) hu.finished
        · rintro g ⟨hu, hj⟩
          exact ⟨uncharged_write hu hj, running_write hj⟩
        · rintro g ⟨hu, hj⟩
          rw [wps_bind]
          refine wps_announce ?_ fun _ => ?_
          · rw [announce_failed rfl]
            exact ⟨rfl, hu, hj⟩
          · rw [announce_failed rfl]
            exact ⟨rfl, hu, hj⟩
      · exact ⟨rfl, hu, hj⟩

theorem wps_phase {c0 c : ℤ} {q : Option ℤ} {phase : EventContext → EventContext} {f : Body α}
    {Q : α → Locals → Tally → Prop} (hj : Running job0 c l.job g) (hc : c = q.getD c0)
    (hu : ∀ ok, Uncharged c0 q (g.announce (phase l.event).toDict ok))
    (hQ : ∀ l' g, Uncharged c0 q g → Running job0 c l'.job g → l'.job.status = l.job.status →
      wps (jobMonitor job0) f Q E l' g)
    (hE : ∀ e l' g, Uncharged c0 q g → Running job0 c l'.job g → E e l' g) :
    wps (jobMonitor job0) (publish phase >>= fun _ => recordProgress >>= fun _ => persist ctx false >>= fun _ => f)
      Q E l g := by
  subst hc
  rw [wps_bind]
  refine wps_publish ?_ fun e => hE e _ _ (hu false) (running_announce hj)
  rw [wps_bind, recordProgress, wps_modify, wps_bind]
  refine wps_persist (I := fun g => Uncharged c0 q g ∧ Running job0 (q.getD c0)
    { l.job with progress := (phase l.event).progress } g) ⟨hu true, running_announce (running_progress _ hj)⟩ ?_ ?_ ?_
  · rintro g ⟨hu, hj⟩
    exact permitted_update hj.toHeld (hj.status.imp_right .inr) hu.finished
  · rintro g ⟨hu, hj⟩
    exact ⟨uncharged_write hu hj, running_write hj⟩
  · rintro g ⟨hu, hj⟩
    exact hQ _ _ hu hj rfl

/-- An exception reaches the outer handler before the charge, or from the COMPLETED event after it. -/
def Raised (job0 : ConversionJob) (c0 : ℤ) (l : Locals) (g : Tally) : Prop :=
  (∃ p, Uncharged c0 p g ∧ Held job0 (p.getD c0) l.job) ∨
    ∃ c, Charged c0 c g ∧ g.announceLost ∧ Held job0 c l.job

theorem convert_spec {c0 : ℤ} {tier : SubscriptionTier} (hu : Uncharged c0 none g)
    (hj : Running job0 c0 l.job g) :
    wps (jobMonitor job0) (convert ctx job tier)
      (fun r l' g' => Uncharged c0 none g' ∧ Running job0 r.creditsUsed l'.job g' ∧ 0 < r.creditsUsed)
      (fun _ l' g' => Uncharged c0 none g' ∧ Running job0 c0 l'.job g') l g := by
  have h25 : (25 : ℤ) ≠ 75 := by omega
  have h50 : (50 : ℤ) ≠ 75 := by omega
  unfold convert
  refine wps_phase (q := none) hj rfl (fun _ => uncharged_announce hu h25)
    (fun l g hu hj _ => ?_) fun _ _ _ hu hj => ⟨hu, hj⟩
  refine wps_quiet (downloadInputFile_only ctx _) (fun plainInput => ?_) fun _ => ⟨hu, hj⟩
  refine wps_quiet (resolveOutputPath_only ctx _ _ _) (fun outputFile => ?_) fun _ => ⟨hu, hj⟩
  refine wps_phase (q := none) hj rfl (fun _ => uncharged_announce hu h50)
    (fun l g hu hj _ => ?_) fun _ _ _ hu hj => ⟨hu, hj⟩
  refine wps_quiet (convertFile_only ctx _ _) (fun computeDurationMs => ?_) fun _ => ⟨hu, hj⟩
  refine wps_quiet (measureFileSizes_only _ _) (fun sizes => ?_) fun _ => ⟨hu, hj⟩
  rw [wps_bind, wps_transition]
  refine ⟨fun job' hjob' => ?_, fun _ _ => ⟨hu, hj⟩⟩
  obtain ⟨-, rfl⟩ := setComputeResult_ok hjob'
  have hprice : 0 < calculateCredits ctx computeDurationMs job.conversion tier := by
    unfold calculateCredits
    omega
  exact ⟨hu, ⟨⟨hj.jobId, hj.batchId, hj.workflowId, rfl⟩, hj.status, hj.failed_of_write⟩, hprice⟩

/-- The charge is asked at most once, at the recorded price, and never raises. -/
theorem consume_spec {c0 c : ℤ} {Q : Option ℤ → Locals → Tally → Prop} (huser : job.userId = job0.userId)
    (hg : Charged c0 c g) (hask : g.asked = false) (hc : g.consumed = false)
    (hQ : ∀ r g, Charged c0 c g → Q r l g) : wps (jobMonitor job0) (.act (consume ctx periodKey job c)) Q E l g := by
  rw [wps_act]
  unfold consume
  rcases hu : job.userId with _ | userId
  · exact hQ none g hg
  · simp only
    split_ifs
    · exact hQ none g hg
    · rw [wpe_tryCatch, wpe_bind]
      refine wpe_ask.2 ⟨⟨huser.symm.trans hu, hg.price_pos, hask, hg.finished⟩, fun remaining _ => ?_,
        fun e took _ _ => ?_⟩
      · exact hQ _ _ (charged_consume hg hc)
      · exact hQ _ _ (charged_ask hg)

theorem deliver_spec {c0 c : ℤ} {r : Converted} (huser : job.userId = job0.userId) (hr : r.creditsUsed = c)
    (hpos : 0 < c) (hu : Uncharged c0 none g) (hj : Running job0 c l.job g) :
    wps (jobMonitor job0) (deliver ctx periodKey job r) (fun _ _ g => Final c0 g)
      (fun _ l g => Raised job0 c0 l g) l g := by
  unfold deliver
  rw [hr]
  refine wps_phase (q := some c) hj rfl (fun _ => uncharged_price hu hpos rfl rfl)
    (fun l g hu hj _ => ?_) fun _ l g hu hj => .inl ⟨some c, hu, hj.toHeld⟩
  refine wps_quiet (uploadOutputFile_only ctx _) (fun outputDest => ?_) fun _ => .inl ⟨some c, hu, hj.toHeld⟩
  rw [wps_bind, wps_transition]
  refine ⟨fun job' hjob' => ?_, fun _ _ => .inl ⟨some c, hu, hj.toHeld⟩⟩
  obtain ⟨hs, rfl⟩ := complete_ok hjob'
  have hheld : Held job0 c { l.job with outputFile := some outputDest, status := .completed, progress := 100 } :=
    ⟨hj.jobId, hj.batchId, hj.workflowId, hj.credits⟩
  rw [wps_bind]
  refine consume_spec huser (charged_of_uncharged hu hj hs) hu.asked hu.consumed fun remaining g hg => ?_
  rw [wps_bind, wps_modify, wps_bind, assignJob, wps_modify, wps_bind]
  refine wps_persist (I := Charged c0 c) hg ?_ ?_ fun g hg => ?_
  · exact fun g hg => permitted_update hheld (.inr (.inl rfl)) hg.finished
  · exact fun g hg => charged_write hg hheld rfl
  · rw [wps_bind, wps_get]
    refine wps_announce (final_of_charged (charged_announce hg)) fun _ => .inr ⟨c, charged_announce hg, ?_, hheld⟩
    simp [Tally.announce, EventContext.toDict, EventContext.completed]

theorem attempt_spec :
    wps (jobMonitor job) (attempt ctx periodKey job) (fun _ _ g => Final job.creditsUsed g)
      (fun _ l g => Raised job job.creditsUsed l g) ⟨job, { jobId := job.jobId }⟩ {} := by
  unfold attempt
  rw [wps_bind, wps_transition]
  refine ⟨fun job' hjob' => ?_, fun _ _ => .inl ⟨none, uncharged_start, rfl, rfl, rfl, rfl⟩⟩
  obtain ⟨-, -, rfl⟩ := startProcessing_ok hjob'
  rw [wps_bind]
  refine wps_persist (I := fun g => Uncharged job.creditsUsed none g ∧
    Running job job.creditsUsed { job with status := .processing } g)
    ⟨uncharged_start, ⟨⟨rfl, rfl, rfl, rfl⟩, .inl rfl, fun h => by cases h⟩⟩ ?_ ?_ ?_
  · rintro g ⟨hu, hj⟩
    exact permitted_update hj.toHeld (.inl rfl) hu.finished
  · rintro g ⟨hu, hj⟩
    exact ⟨uncharged_write hu hj, running_write hj⟩
  · rintro g ⟨hu, hj⟩
    rw [wps_bind]
    refine wps_mono (creditPreCheck_spec hu hj) ?_ fun _ _ _ h => h
    rintro r l g ⟨-, hu, hj⟩
    rcases r with _ | tier
    · exact final_of_uncharged hu
    · refine (wps_bind.2 (wps_mono (convert_spec hu hj) ?_ ?_))
      · rintro r l g ⟨hu, hj, hpos⟩
        exact deliver_spec rfl rfl hpos hu hj
      · rintro e l g ⟨hu, hj⟩
        exact .inl ⟨none, hu, hj.toHeld⟩

/-- The outer handler overwrites whatever was there with FAILED, if its write takes effect, and raises. -/
theorem giveUp_spec {c0 : ℤ} {e : PyError} (h : Raised job0 c0 l g) :
    wps (jobMonitor job0) (giveUp ctx e) (fun _ _ g => Final c0 g) (fun _ _ g => Final c0 g) l g := by
  unfold giveUp
  rw [wps_bind, assignJob, wps_modify, wps_bind, recordProgress, wps_modify, wps_bind]
  rcases h with ⟨p, hu, hj⟩ | ⟨c, hg, hl, hj⟩
  · have hj' : Running job0 (p.getD c0)
        { markFailed e.message l.job with progress := l.event.progress } g :=
      running_progress _ (running_markFailed _ hj)
    refine wps_persist (I := fun g => Uncharged c0 p g ∧ Running job0 (p.getD c0)
      { markFailed e.message l.job with progress := l.event.progress } g) ⟨hu, hj'⟩ ?_ ?_ ?_
    · rintro g ⟨hu, hj⟩
      exact permitted_update hj.toHeld (.inr (.inr (markFailed_status _))) hu.finished
    · rintro g ⟨hu, hj⟩
      exact ⟨uncharged_write hu hj, running_write hj⟩
    · rintro g ⟨hu, -⟩
      rw [wps_bind]
      refine wps_publish ?_ fun _ => ?_
      · rw [announce_failed rfl]
        exact final_of_uncharged hu
      · rw [announce_failed rfl]
        exact final_of_uncharged hu
  · have hj' := held_progress l.event.progress (held_markFailed e.message hj)
    refine wps_persist (I := fun g => (Charged c0 c g ∧ g.announceLost) ∨ ∃ g', Charged c0 c g' ∧ g'.announceLost ∧
      g = g'.write { markFailed e.message l.job with progress := l.event.progress }) (.inl ⟨hg, hl⟩) ?_ ?_ ?_
    · rintro g (⟨hg, -⟩ | ⟨g, hg, -, rfl⟩)
      · exact permitted_update hj' (.inr (.inr (markFailed_status _))) hg.finished
      · exact permitted_update hj' (.inr (.inr (markFailed_status _))) hg.finished
    · rintro g (⟨hg, hl⟩ | ⟨g, hg, hl, rfl⟩)
      · exact .inr ⟨g, hg, hl, rfl⟩
      · exact .inr ⟨g, hg, hl, write_write⟩
    · intro g hg
      have hfinal : Final c0 g := by
        rcases hg with ⟨hg, -⟩ | ⟨g, hg, hl, rfl⟩
        · exact final_of_charged hg
        · exact final_of_overwritten hg hl (markFailed_status _) hj'.credits
      rw [wps_bind]
      refine wps_publish ?_ fun _ => ?_
      · rw [announce_failed rfl]
        exact hfinal
      · rw [announce_failed rfl]
        exact hfinal

/-- The guard's read leaves the tally but for what it read. -/
theorem loadPersistedJob_spec {E : PyError → Tally → Prop} :
    wpe (jobMonitor job) (loadPersistedJob ctx job.jobId)
      (fun row g => g = { finished := (row.filter isFinished).isSome }) E {} := by
  unfold loadPersistedJob
  split_ifs
  · rw [wpe_tryCatch]
    refine wpe_onFreshSession (I := fun g => g = {}) ?_ ?_ rfl
    · rintro g rfl
      exact wpe_ask.2 ⟨⟨rfl, rfl⟩, fun _ _ => rfl, fun _ _ _ _ => rfl⟩
    · rintro e g rfl
      rfl
  · rfl

theorem final_of_replay {c0 : ℤ} {event : JobEvent} {ok : Bool} (hp : event.progress ≠ 75) :
    Final c0 (({ finished := true } : Tally).announce event ok) := by
  have h : Uncharged c0 none (({} : Tally).announce event ok) := uncharged_announce uncharged_start hp
  exact ⟨(final_of_uncharged h).completed_iff, (final_of_uncharged h).honest_iff,
    (final_of_uncharged h).charged_nonneg⟩

/-- **The specification of `process_job`**: a worker asks only what it may, and every run leaves `Final`. -/
theorem processJob_spec :
    wp (jobMonitor job) (processJob ctx periodKey job).run (fun _ g => Final job.creditsUsed g) {} := by
  have h100 : (100 : ℤ) ≠ 75 := by omega
  have spec : wpe (jobMonitor job) (processJob ctx periodKey job) (fun _ g => Final job.creditsUsed g)
      (fun _ g => Final job.creditsUsed g) {} := by
    unfold processJob
    rw [wpe_bind]
    refine wpe_mono (loadPersistedJob_spec (E := fun _ g => Final job.creditsUsed g)) ?_ fun _ _ h => h
    rintro row g rfl
    rcases hrow : row.filter isFinished with _ | done
    · rw [wpe_exec, wps_tryCatch]
      exact wps_mono attempt_spec (fun _ _ _ h => h) fun _ _ _ h => giveUp_spec h
    · exact wpe_ask.2 ⟨trivial, fun _ _ => final_of_replay h100, fun _ _ _ _ => final_of_replay h100⟩
  exact wp_mono (fun r g hr => by rcases r with e | a <;> exact hr) spec

end Stages

/-! ## The guard comes first -/

section Guard

/-- Follows whether the guard's read has been made, and demands it of a charge. -/
def guardMonitor : Monitor JobSig Bool where
  pre g
    | .consume _ _ _ _ => g = true
    | _ => True
  rely _ _ := True
  step g ev :=
    match ev.op with
    | .getJob _ => true
    | _ => g

theorem wp_guarded {α : Type} (p : Proc JobSig α) : wp guardMonitor p (fun _ _ => True) true := by
  induction p with
  | ret a => trivial
  | call op k ih =>
    refine ⟨?_, fun out took h _ => ?_⟩
    · cases op <;> trivial
    · have hstep : guardMonitor.step true ⟨op, out, took, h⟩ = true := by cases op <;> rfl
      rw [hstep]
      exact ih out

theorem processJob_guarded {ctx : WorkerContext} (hctx : ctx.jobRepository = true) (periodKey : String)
    (job : ConversionJob) : wp guardMonitor (processJob ctx periodKey job).run (fun _ _ => True) false := by
  have past : ∀ {α : Type} (p : Py α), wpe guardMonitor p (fun _ _ => True) (fun _ _ => True) true := fun p =>
    wp_mono (fun r _ _ => by cases r <;> trivial) (wp_guarded p.run)
  have spec : wpe guardMonitor (processJob ctx periodKey job) (fun _ _ => True) (fun _ _ => True) false := by
    unfold processJob loadPersistedJob onFreshSession
    rw [if_pos hctx, wpe_bind, wpe_tryCatch, wpe_tryCatch]
    refine wpe_ask.2 ⟨trivial, fun row _ => past _, fun e took h _ => ?_⟩
    split_ifs
    · exact wpe_ask.2 ⟨trivial, fun row _ => past _, fun _ _ _ _ => past _⟩
    · exact past _
  exact wp_mono (fun _ _ _ => trivial) spec

end Guard

end Transform.Worker
