import Transform.Conversions.VerifyRequest

/-!
# Conversions.VerifySystem — finalize calls and workers on one job

Any number of finalize calls that name any jobs, and of workers, interleaved call by call; a worker may be
delivered any entry of the streams, again and again, and any thread may end at any point.  For one job,
`charged_once` gives the two conditions under which it is published and charged at most once.
-/

namespace Transform.Conversions

open Lib Billing Worker

/-! ## The system -/

section System

/-- Who runs: a finalize call with the job it names, or a worker with its job, `again` where the entry had been
delivered before. -/
inductive Party
  | verify (userId : ℤ) (jobId : Option String)
  | worker (job : ConversionJob) (again : Bool)

def Party.actor : Party → Actor
  | .verify userId _ => .verify userId
  | .worker job _ => .worker job

/-- The shared state, with what happened to one job on the side. -/
structure VerifyWorld where
  jobs : JobWorld
  /-- the finalize calls that took the job out of AWAITING_UPLOAD -/
  left : List ℕ := []
  /-- the entries of the streams that have been delivered -/
  delivered : List ℕ := []
  /-- the worker that may charge the job -/
  armed : Option ℕ := none
  /-- the charges for the job that took effect -/
  charges : ℕ := 0

namespace VerifyWorld

variable (jobId : String) (w : VerifyWorld)

def Waiting : Prop := (w.jobs.rows.get jobId).map (·.status) = some .awaitingUpload

instance : Decidable (w.Waiting jobId) := by
  unfold Waiting
  infer_instance

def messages : ℕ := w.jobs.published.countP fun m => m.lookup "job_id" = some jobId

/-- The `n`th entry of the streams. -/
def entry (n : ℕ) : Option Fields := w.jobs.published.reverse[n]?

/-- The `n`th entry is a message of the job. -/
def IsEntry (n : ℕ) : Prop := ∃ m, w.entry n = some m ∧ m.lookup "job_id" = some jobId

def leaves (ev : Event JobSig) : Bool :=
  match updateOf ev with
  | some job => job.jobId = jobId ∧ job.status ≠ .awaitingUpload ∧ w.Waiting jobId
  | none => false

/-- A worker takes up entry `n`; the first delivery of a message of the job arms it. -/
def deliver (i n : ℕ) (job : ConversionJob) : VerifyWorld :=
  { w with
    delivered := n :: w.delivered
    armed := if job.jobId = jobId ∧ n ∉ w.delivered then some i else w.armed }

end VerifyWorld

/-- A guard's read that does not find the job finished. -/
def passesGuard : Event JobSig → Bool
  | ⟨.getJob _, .ok row, _, _⟩ => (row.filter isFinished).isNone
  | ⟨.getJob _, .error _, _, _⟩ => true
  | _ => false

def tookCharge : Event JobSig → Bool
  | ⟨.consume _ _ _ _, _, took, _⟩ => took
  | _ => false

/-- What an exchange does to the shared state. -/
def VerifyWorld.apply (jobId : String) (w : VerifyWorld) (i : ℕ) (party : Party) (ev : Event JobSig) : VerifyWorld :=
  let jobs := w.jobs.apply i party.actor ev
  match party with
  | .verify _ _ => { w with jobs, left := if w.leaves jobId ev then i :: w.left else w.left }
  | .worker job again =>
    { w with
      jobs
      armed := if job.jobId = jobId ∧ again ∧ passesGuard ev then some i else w.armed
      charges := if job.jobId = jobId ∧ tookCharge ev then w.charges + 1 else w.charges }

/-- Finalize calls and workers, watched at one job. -/
def verifySystem (ctx : ServiceContext) (jobId : String) : Sys JobSig where
  World := VerifyWorld
  Tag := Party
  spawn w i party p w' :=
    (∃ req : VerifyRequest, party = .verify req.userId req.jobId ∧ p = thread (verifyUploadSession ctx req) ∧ w' = w) ∨
      ∃ wctx periodKey n m job, wctx.jobRepository = true ∧ w.entry n = some m ∧ buildJob m = .ok job ∧
        party = .worker job (n ∈ w.delivered) ∧ p = thread (processJob wctx periodKey job) ∧ w' = w.deliver jobId i n job
  Allowed w _ _ ev := w.jobs.Allowed ev
  apply := VerifyWorld.apply jobId

end System

/-! ## What a step can do -/

section Moves

variable {jobId : String} {w w' : VerifyWorld} {i : ℕ} {id : Option String} {g : View} {job : ConversionJob}

/-- The streams only grow and the bookkeeping of deliveries stands. -/
structure Kept (jobId : String) (w w' : VerifyWorld) : Prop where
  entry : ∀ n, w.IsEntry jobId n → w'.IsEntry jobId n
  delivered : w'.delivered = w.delivered

/-- The job is neither published nor taken out of AWAITING_UPLOAD. -/
structure Calm (jobId : String) (w w' : VerifyWorld) : Prop extends Kept jobId w w' where
  waiting : w'.Waiting jobId → w.Waiting jobId
  messages : w'.messages jobId = w.messages jobId
  left : w'.left = w.left

theorem isEntry_of_published {n : ℕ} (h : w'.jobs.published = w.jobs.published ∨
    ∃ m, w'.jobs.published = m :: w.jobs.published) (hn : w.IsEntry jobId n) : w'.IsEntry jobId n := by
  obtain ⟨m, hm, hid⟩ := hn
  refine ⟨m, ?_, hid⟩
  unfold VerifyWorld.entry at hm ⊢
  rcases h with h | ⟨m', h⟩
  · rw [h, hm]
  · have hlt : n < w.jobs.published.reverse.length := (List.getElem?_eq_some_iff.1 hm).1
    rw [h, List.reverse_cons, List.getElem?_append_left hlt, hm]

/-- In a list with one occurrence of `p` its position is determined. -/
theorem index_unique {α : Type} {p : α → Bool} : ∀ {l : List α} {n m : ℕ} {a b : α}, l.countP p ≤ 1 →
    l[n]? = some a → p a → l[m]? = some b → p b → n = m
  | [], n, _, _, _, _, h, _, _, _ => by simp at h
  | x :: l, n, m, a, b, hc, ha, hpa, hb, hpb => by
    have hrest : ∀ {y : α} {k : ℕ}, l[k]? = some y → p y → 0 < l.countP p := fun hy hp =>
      List.countP_pos_iff.2 ⟨_, List.mem_of_getElem? hy, hp⟩
    rw [List.countP_cons] at hc
    rcases n with _ | n <;> rcases m with _ | m
    · rfl
    · obtain rfl : x = a := by simpa using ha
      have := hrest hb hpb
      rw [if_pos hpa] at hc
      omega
    · obtain rfl : x = b := by simpa using hb
      have := hrest ha hpa
      rw [if_pos hpb] at hc
      omega
    · rw [index_unique (l := l) (by omega) ha hpa hb hpb]

theorem entry_unique {n n' : ℕ} (hc : w.messages jobId ≤ 1) (hn : w.IsEntry jobId n) (hn' : w.IsEntry jobId n') :
    n = n' := by
  obtain ⟨m, hm, hid⟩ := hn
  obtain ⟨m', hm', hid'⟩ := hn'
  unfold VerifyWorld.messages at hc
  rw [← List.countP_reverse] at hc
  exact index_unique hc hm (by simpa using hid) hm' (by simpa using hid')

theorem waiting_of_update (h : w'.jobs.rows = w.jobs.rows.update job) (hw : w'.Waiting jobId) :
    (job.jobId = jobId → job.status = .awaitingUpload) ∧ (job.jobId ≠ jobId → w.Waiting jobId) := by
  unfold VerifyWorld.Waiting at hw ⊢
  rw [h, get_update] at hw
  constructor
  · rintro rfl
    rw [if_pos rfl] at hw
    obtain ⟨row, hrow, hs⟩ := Option.map_eq_some_iff.1 hw
    obtain ⟨r, -, rfl⟩ := Option.map_eq_some_iff.1 hrow
    exact hs
  · intro hne
    rwa [if_neg (Ne.symm hne)] at hw

theorem calm_refl : Calm jobId w w := ⟨⟨fun _ h => h, rfl⟩, fun h => h, rfl, rfl⟩

/-- What the exchange of a finalize call can do to the job. -/
inductive VerifyMove (jobId : String) (w : VerifyWorld) (i : ℕ) (w' : VerifyWorld) : Prop
  | calm (h : Calm jobId w w')
  | left (hk : Kept jobId w w') (hw : w.Waiting jobId) (hw' : ¬ w'.Waiting jobId)
      (hm : w'.messages jobId = w.messages jobId) (hl : w'.left = i :: w.left)
  | published (hk : Kept jobId w w') (hw : w'.Waiting jobId → w.Waiting jobId)
      (hm : w'.messages jobId = w.messages jobId + 1) (hl : w'.left = w.left)
      (hi : w.left = [i] ∧ w.messages jobId = 0)

/-- What a finalize call of the job knows of it: a job it read in another status has left AWAITING_UPLOAD, only a
job read AWAITING_UPLOAD gets past its re-pointing, and the call that took it out is the only one, unpublished. -/
def Viewed (jobId : String) (w : VerifyWorld) (i : ℕ) : View → Prop
  | .read status => status ≠ .awaitingUpload → ¬ w.Waiting jobId
  | .pointed status => status = .awaitingUpload
  | .left => w.left = [i] ∧ w.messages jobId = 0
  | _ => True

/-- The job is published at most once, by the call that took it out of AWAITING_UPLOAD, and charged at most once,
by the worker that is armed. -/
structure VerifyInv (jobId : String) (w : VerifyWorld) : Prop where
  messages : w.messages jobId ≤ w.left.length
  left : w.left.length ≤ 1
  waiting : w.Waiting jobId → w.left = []
  worked : w.armed ≠ none ∨ 0 < w.charges → ∃ n ∈ w.delivered, w.IsEntry jobId n
  charges : w.charges ≤ 1

theorem messages_of_waiting (hI : VerifyInv jobId w) (h : w.Waiting jobId) : w.messages jobId = 0 := by
  have hm := hI.messages
  rw [hI.waiting h, List.length_nil] at hm
  omega

/-- What an exchange of a finalize call leaves of the world but for the row, the streams and `left`. -/
theorem kept_of_verify {userId : ℤ} {ev : Event JobSig} :
    Kept jobId w (w.apply jobId i (.verify userId id) ev) := by
  refine ⟨fun n hn => isEntry_of_published ?_ hn, rfl⟩
  obtain ⟨op, out, took, h⟩ := ev
  cases op with
  | uuid4 => rcases out with e | a <;> exact .inl rfl
  | insertJob row => rcases took with _ | _ <;> exact .inl rfl
  | updateJob job => rcases took with _ | _ <;> exact .inl rfl
  | publishJob stream m =>
    rcases took with _ | _
    · exact .inl rfl
    · exact .inr ⟨m, rfl⟩
  | _ => exact .inl rfl

theorem move_of_update {userId : ℤ} {out : Except PyError Unit} {h : ∀ a, out = .ok a → true = true}
    (hI : VerifyInv jobId w) (hg : g = .read job.status ∨ g = .pointed .awaitingUpload ∧ job.status = .pending)
    (hv : Viewed jobId w i g) (hj : job.jobId = jobId) (hw : w.Waiting jobId) :
    VerifyMove jobId w i (w.apply jobId i (.verify userId id) ⟨.updateJob job, out, true, h⟩) ∧
      Viewed jobId (w.apply jobId i (.verify userId id) ⟨.updateJob job, out, true, h⟩) i
        (viewStep g ⟨.updateJob job, out, true, h⟩) := by
  rcases hg with rfl | ⟨rfl, hs⟩
  · have hs : job.status = .awaitingUpload := by
      by_contra hs
      exact hv hs hw
    have hleft : w.leaves jobId ⟨.updateJob job, out, true, h⟩ = false := by
      simp [VerifyWorld.leaves, updateOf, hs]
    refine ⟨.calm ⟨kept_of_verify, fun _ => hw, rfl, ?_⟩, ?_⟩
    · simp [VerifyWorld.apply, hleft]
    · rcases out with e | a
      · trivial
      · exact hs
  · have hleft : w.leaves jobId ⟨.updateJob job, out, true, h⟩ = true := by
      simp [VerifyWorld.leaves, updateOf, hs, hj, hw]
    have hl : (w.apply jobId i (.verify userId id) ⟨.updateJob job, out, true, h⟩).left = i :: w.left := by
      simp [VerifyWorld.apply, hleft]
    refine ⟨.left kept_of_verify hw (fun hw' => ?_) rfl hl, ?_⟩
    · have hrows : (w.apply jobId i (.verify userId id) ⟨.updateJob job, out, true, h⟩).jobs.rows =
          w.jobs.rows.update job := rfl
      have hstatus := (waiting_of_update hrows hw').1 hj
      rw [hs] at hstatus
      cases hstatus
    · rcases out with e | a
      · trivial
      · have hm0 : w.messages jobId = 0 := messages_of_waiting hI hw
        exact ⟨by rw [hl, hI.waiting hw], hm0⟩

theorem move_of_publish {userId : ℤ} {stream : String} {m : Fields} {out : Except PyError Unit}
    {h : ∀ a, out = .ok a → true = true}
    (hg : g = .left ∨ ∃ status, g = .pointed status ∧ status ≠ .awaitingUpload) (hv : Viewed jobId w i g)
    (hm : m.lookup "job_id" = some jobId) :
    VerifyMove jobId w i (w.apply jobId i (.verify userId id) ⟨.publishJob stream m, out, true, h⟩) := by
  rcases hg with rfl | ⟨status, rfl, hs⟩
  · refine .published kept_of_verify (fun hw => hw) ?_ rfl hv
    show List.countP _ (m :: w.jobs.published) = _
    rw [List.countP_cons_of_pos (by simpa using hm)]
    rfl
  · exact absurd hv hs

/-- **The inversion lemma of a finalize call.** -/
theorem move_of_verify {userId : ℤ} {op : JobOp} {k : Except PyError op.Ans → Proc JobSig Unit}
    {out : Except PyError op.Ans} {took : Bool} {h : ∀ a, out = .ok a → took = true} (hI : VerifyInv jobId w)
    (hwp : wp (verifyMonitor id) (.call op k) (fun _ _ => True) g) (hv : id = some jobId → Viewed jobId w i g)
    (hall : w.jobs.Allowed ⟨op, out, took, h⟩)
    (hone : ∀ job, updateOf ⟨op, out, took, h⟩ = some job → job.jobId = jobId → w.Waiting jobId) :
    VerifyMove jobId w i (w.apply jobId i (.verify userId id) ⟨op, out, took, h⟩) ∧
      (id = some jobId → Viewed jobId (w.apply jobId i (.verify userId id) ⟨op, out, took, h⟩) i
        (viewStep g ⟨op, out, took, h⟩)) := by
  have hpre : VerifyPermitted id g op := hwp.1
  cases op with
  | getJob id' =>
    obtain rfl : id = some id' := hpre
    refine ⟨.calm calm_refl, ?_⟩
    rintro hid
    obtain rfl : id' = jobId := Option.some.inj hid
    rcases out with e | _ | row
    · trivial
    · trivial
    · intro hs hw
      have hrow : some row = w.jobs.rows.get id' := hall
      have hw' : (w.jobs.rows.get id').map (·.status) = some .awaitingUpload := hw
      rw [← hrow] at hw'
      exact hs (Option.some.inj hw')
  | updateJob job =>
    obtain ⟨rfl, hg⟩ := hpre
    rcases took with _ | _
    · refine ⟨.calm calm_refl, fun hid => ?_⟩
      rcases out with e | a
      · trivial
      · cases h a rfl
    · by_cases hj : job.jobId = jobId
      · have hmove := @move_of_update jobId w i (some job.jobId) g job userId out h hI hg (hv (by rw [hj])) hj
          (hone job rfl hj)
        exact ⟨hmove.1, fun _ => hmove.2⟩
      · have hleft : w.leaves jobId ⟨.updateJob job, out, true, h⟩ = false := by
          simp [VerifyWorld.leaves, updateOf, hj]
        have hrows : (w.apply jobId i (.verify userId (some job.jobId)) ⟨.updateJob job, out, true, h⟩).jobs.rows =
            w.jobs.rows.update job := rfl
        refine ⟨.calm ⟨kept_of_verify, fun hw => (waiting_of_update hrows hw).2 hj, rfl, ?_⟩, fun hid => ?_⟩
        · simp [VerifyWorld.apply, hleft]
        · exact absurd (Option.some.inj hid) hj
  | publishJob stream m =>
    obtain ⟨id', rfl, hm, hg⟩ := hpre
    refine ⟨?_, fun _ => trivial⟩
    rcases took with _ | _
    · exact .calm calm_refl
    · by_cases hj : id' = jobId
      · subst hj
        exact move_of_publish hg (hv rfl) hm
      · refine .calm ⟨kept_of_verify, fun hw => hw, ?_, rfl⟩
        show List.countP _ (m :: w.jobs.published) = _
        rw [List.countP_cons_of_neg (by simpa [hm] using hj)]
        rfl
  | uploads op => exact ⟨.calm calm_refl, hv⟩
  | uuid4 => exact hpre.elim
  | utcNow => exact hpre.elim
  | insertJob row => exact hpre.elim
  | publishEvent event => exact hpre.elim
  | getAvailableTotal userId periodKey => exact hpre.elim
  | getTier userId => exact hpre.elim
  | consume userId periodKey units origin => exact hpre.elim
  | file op => exact hpre.elim

/-- A worker's exchange neither publishes the job nor brings it back to AWAITING_UPLOAD. -/
theorem calm_of_worker {again : Bool} {tally : Tally} {op : JobOp} {k : Except PyError op.Ans → Proc JobSig Unit}
    {out : Except PyError op.Ans} {took : Bool} {h : ∀ a, out = .ok a → took = true}
    (hwp : wp (jobMonitor job) (.call op k) (fun _ _ => True) tally) :
    Calm jobId w (w.apply jobId i (.worker job again) ⟨op, out, took, h⟩) := by
  have hpre : Permitted job tally op := hwp.1
  cases op with
  | updateJob row =>
    obtain ⟨hid, -, -, hs, -⟩ := hpre
    rcases took with _ | _
    · exact ⟨⟨fun _ hn => hn, rfl⟩, fun hw => hw, rfl, rfl⟩
    · have hrows : (w.jobs.write (.worker job) row).rows = w.jobs.rows.update row := by
        unfold JobWorld.write
        split_ifs <;> rfl
      have hpub : (w.jobs.write (.worker job) row).published = w.jobs.published := by
        unfold JobWorld.write
        split_ifs <;> rfl
      refine ⟨⟨fun n hn => isEntry_of_published (.inl hpub) hn, rfl⟩, fun hw => ?_, ?_, rfl⟩
      · obtain ⟨hsame, hother⟩ := waiting_of_update hrows hw
        by_cases hj : row.jobId = jobId
        · have := hsame hj
          rw [this] at hs
          rcases hs with hs | hs | hs <;> cases hs
        · exact hother hj
      · show List.countP _ (w.jobs.write (.worker job) row).published = _
        rw [hpub]
        rfl
  | consume userId periodKey units origin => exact ⟨⟨fun _ hn => hn, rfl⟩, fun hw => hw, rfl, rfl⟩
  | getJob id => exact ⟨⟨fun _ hn => hn, rfl⟩, fun hw => hw, rfl, rfl⟩
  | publishEvent event => exact ⟨⟨fun _ hn => hn, rfl⟩, fun hw => hw, rfl, rfl⟩
  | getAvailableTotal userId periodKey => exact ⟨⟨fun _ hn => hn, rfl⟩, fun hw => hw, rfl, rfl⟩
  | getTier userId => exact ⟨⟨fun _ hn => hn, rfl⟩, fun hw => hw, rfl, rfl⟩
  | file op => exact ⟨⟨fun _ hn => hn, rfl⟩, fun hw => hw, rfl, rfl⟩
  | uuid4 => exact hpre.elim
  | utcNow => exact hpre.elim
  | insertJob row => exact hpre.elim
  | publishJob stream m => exact hpre.elim
  | uploads op => exact hpre.elim

end Moves

/-! ## The invariant is preserved -/

section Preservation

variable {ctx : ServiceContext} {jobId : String} {w w' : VerifyWorld} {i j : ℕ} {g : View} {job : ConversionJob}

/-- A worker of the job may charge it: no charge asked, not known finished, past the guard if delivered again. -/
def MayCharge (again : Bool) (tally : Tally) (guarded : Bool) : Prop :=
  tally.asked = false ∧ tally.finished = false ∧ (again = false ∨ guarded = true)

/-- A thread: a finalize call that keeps to its job, or a worker of a delivered entry.  A worker that may charge
is the armed one. -/
def VerifyThread (jobId : String) (w : VerifyWorld) (i : ℕ) : Party → Proc JobSig Unit → Prop
  | .verify _ id, p => ∃ g, wp (verifyMonitor id) p (fun _ _ => True) g ∧ (id = some jobId → Viewed jobId w i g)
  | .worker job again, p => ∃ tally guarded, wp (jobMonitor job) p (fun _ _ => True) tally ∧
      wp guardMonitor p (fun _ _ => True) guarded ∧
      (job.jobId = jobId → (∃ n ∈ w.delivered, w.IsEntry jobId n) ∧
        (MayCharge again tally guarded → w.armed = some i ∧ w.charges = 0))

def Alone (c : (verifySystem ctx jobId).Config) (i : ℕ) : Prop :=
  ∀ j job again op k, j ≠ i → c.threads j = some (.worker job again, .call op k) → job.jobId ≠ jobId

/-- An UPDATE of a finalize call finds the job AWAITING_UPLOAD, and a worker that is delivered an entry again
passes the guard only when the job is uncharged and no other worker of it is running. -/
def OneByOne (c : (verifySystem ctx jobId).Config) (i : ℕ) : Party → Event JobSig → Prop
  | .verify _ _, ev => ∀ job, updateOf ev = some job → job.jobId = jobId → VerifyWorld.Waiting jobId c.world
  | .worker job again, ev => job.jobId = jobId → again = true → passesGuard ev →
      VerifyWorld.charges c.world = 0 ∧ Alone c i

theorem inv_of_calm (hI : VerifyInv jobId w) (hcalm : Calm jobId w w')
    (hworked : w'.armed ≠ none ∨ 0 < w'.charges → ∃ n ∈ w.delivered, w.IsEntry jobId n) (hc : w'.charges ≤ 1) :
    VerifyInv jobId w' := by
  refine ⟨?_, ?_, fun h => ?_, fun h => ?_, hc⟩
  · rw [hcalm.messages, hcalm.left]
    exact hI.messages
  · rw [hcalm.left]
    exact hI.left
  · rw [hcalm.left]
    exact hI.waiting (hcalm.waiting h)
  · obtain ⟨n, hn, he⟩ := hworked h
    exact ⟨n, hcalm.delivered ▸ hn, hcalm.entry n he⟩

theorem inv_of_move (hI : VerifyInv jobId w) (hm : VerifyMove jobId w i w') (ha : w'.armed = w.armed)
    (hc : w'.charges = w.charges) : VerifyInv jobId w' := by
  have worked : w'.armed ≠ none ∨ 0 < w'.charges → ∃ n ∈ w.delivered, w.IsEntry jobId n := by
    rw [ha, hc]
    exact hI.worked
  have worked' : Kept jobId w w' → w'.armed ≠ none ∨ 0 < w'.charges → ∃ n ∈ w'.delivered, w'.IsEntry jobId n := by
    rintro hk h
    obtain ⟨n, hn, he⟩ := worked h
    exact ⟨n, hk.delivered ▸ hn, hk.entry n he⟩
  have hcharges : w'.charges ≤ 1 := hc ▸ hI.charges
  rcases hm with hcalm | ⟨hk, hw, hw', hm, hl⟩ | ⟨hk, hw, hm, hl, hi, hm0⟩
  · exact inv_of_calm hI hcalm worked hcharges
  · have hm0 := messages_of_waiting hI hw
    have hl0 := hI.waiting hw
    refine ⟨?_, ?_, fun h => absurd h hw', worked' hk, hcharges⟩
    · rw [hm, hm0]
      omega
    · rw [hl, hl0]
      simp
  · have hl1 : w.left.length = 1 := by rw [hi, List.length_singleton]
    refine ⟨?_, ?_, fun h => ?_, worked' hk, hcharges⟩
    · rw [hm, hl]
      omega
    · rw [hl]
      omega
    · rw [hl]
      exact hI.waiting (hw h)

theorem viewed_of_calm (hc : Calm jobId w w') (hv : Viewed jobId w i g) : Viewed jobId w' i g := by
  cases g with
  | read status => exact fun hs hw => hv hs (hc.waiting hw)
  | pointed status => exact hv
  | left => exact ⟨hc.left.trans hv.1, hc.messages.trans hv.2⟩
  | fresh => trivial
  | ended => trivial

/-- What another call knows of the job stays true. -/
theorem viewed_other (hI : VerifyInv jobId w) (hm : VerifyMove jobId w i w') (hij : j ≠ i)
    (hv : Viewed jobId w j g) : Viewed jobId w' j g := by
  rcases hm with hcalm | ⟨hk, hw, hw', hm, hl⟩ | ⟨hk, hw, hm, hl, hi, hm0⟩
  · exact viewed_of_calm hcalm hv
  · cases g with
    | read status => exact fun _ => hw'
    | pointed status => exact hv
    | left =>
      have hleft := hv.1
      rw [hI.waiting hw] at hleft
      cases hleft
    | fresh => trivial
    | ended => trivial
  · cases g with
    | read status => exact fun hs h => hv hs (hw h)
    | pointed status => exact hv
    | left =>
      have hleft := hv.1
      rw [hi] at hleft
      exact absurd (List.cons.inj hleft).1.symm hij
    | fresh => trivial
    | ended => trivial

theorem verifyThread_other {party : Party} {p : Proc JobSig Unit} (hT : VerifyThread jobId w j party p)
    (hv : ∀ g, Viewed jobId w j g → Viewed jobId w' j g) (hk : Kept jobId w w')
    (ha : w.armed = some j → w.charges = 0 → w'.armed = some j ∧ w'.charges = 0) :
    VerifyThread jobId w' j party p := by
  rcases party with ⟨userId, id⟩ | ⟨job, again⟩
  · obtain ⟨g, hwp, hg⟩ := hT
    exact ⟨g, hwp, fun hid => hv g (hg hid)⟩
  · obtain ⟨tally, guarded, hwp, hguard, hrel⟩ := hT
    refine ⟨tally, guarded, hwp, hguard, fun hid => ?_⟩
    obtain ⟨⟨n, hn, he⟩, harm⟩ := hrel hid
    exact ⟨⟨n, hk.delivered ▸ hn, hk.entry n he⟩, fun hmay => ha (harm hmay).1 (harm hmay).2⟩

/-- A worker whose program is over may not charge. -/
theorem verifyThread_ended {again : Bool} {p : Proc JobSig Unit} (hp : ∀ op k, p ≠ .call op k)
    (hd : ∃ n ∈ w.delivered, w.IsEntry jobId n) : VerifyThread jobId w j (.worker job again) p := by
  rcases p with a | ⟨op, k⟩
  · exact ⟨{ asked := true }, true, trivial, trivial, fun _ => ⟨hd, fun h => (by cases h.1)⟩⟩
  · exact absurd rfl (hp op k)

theorem armed_of_charge {again guarded : Bool} {tally : Tally} {op : JobOp}
    {k : Except PyError op.Ans → Proc JobSig Unit} {out : Except PyError op.Ans} {took : Bool}
    {h : ∀ a, out = .ok a → took = true} (hwp : wp (jobMonitor job) (.call op k) (fun _ _ => True) tally)
    (hguard : wp guardMonitor (.call op k) (fun _ _ => True) guarded)
    (harm : MayCharge again tally guarded → w.armed = some i ∧ w.charges = 0)
    (htook : tookCharge ⟨op, out, took, h⟩ = true) : w.armed = some i ∧ w.charges = 0 := by
  cases op with
  | consume userId periodKey units origin =>
    obtain ⟨-, -, hasked, hfinished⟩ := (show Permitted job tally (.consume userId periodKey units origin) from hwp.1)
    have hr : guarded = true := hguard.1
    exact harm ⟨hasked, hfinished, .inr hr⟩
  | _ => cases htook

theorem mayCharge_step {again guarded : Bool} {tally : Tally} {op : JobOp}
    {k : Except PyError op.Ans → Proc JobSig Unit} {out : Except PyError op.Ans} {took : Bool}
    {h : ∀ a, out = .ok a → took = true} (hwp : wp (jobMonitor job) (.call op k) (fun _ _ => True) tally)
    (hmay : MayCharge again (tally.step ⟨op, out, took, h⟩) (guardMonitor.step guarded ⟨op, out, took, h⟩)) :
    tookCharge ⟨op, out, took, h⟩ = false ∧
      (MayCharge again tally guarded ∨ again = true ∧ passesGuard ⟨op, out, took, h⟩ = true) := by
  have hpre : Permitted job tally op := hwp.1
  obtain ⟨hasked, hfinished, hpast⟩ := hmay
  cases op with
  | getJob id =>
    refine ⟨rfl, ?_⟩
    have hpass : passesGuard ⟨.getJob id, out, took, h⟩ = true := by
      rcases out with e | row
      · rfl
      · have hnone : (row.filter isFinished).isSome = false := hfinished
        show (row.filter isFinished).isNone = true
        rw [← Option.not_isSome, hnone]
        rfl
    have hasked' : tally.asked = false := by rcases out with e | row <;> exact hasked
    cases again with
    | true => exact .inr ⟨rfl, hpass⟩
    | false => exact .inl ⟨hasked', hpre.2, .inl rfl⟩
  | consume userId periodKey units origin => rcases out with e | a <;> cases hasked
  | updateJob row =>
    rcases took with _ | _ <;> exact ⟨rfl, .inl ⟨hasked, hfinished, hpast⟩⟩
  | _ => exact ⟨rfl, .inl ⟨hasked, hfinished, hpast⟩⟩

/-! ### Deliveries -/

theorem untouched_of_first {n : ℕ} (hI : VerifyInv jobId w) (he : w.IsEntry jobId n) (hn : n ∉ w.delivered) :
    (¬ ∃ n ∈ w.delivered, w.IsEntry jobId n) ∧ w.charges = 0 := by
  have hsole : w.messages jobId ≤ 1 := hI.messages.trans hI.left
  have hnone : ¬ ∃ n ∈ w.delivered, w.IsEntry jobId n := by
    rintro ⟨n', hn', he'⟩
    rw [entry_unique hsole he he'] at hn
    exact hn hn'
  refine ⟨hnone, ?_⟩
  by_contra hc
  exact hnone (hI.worked (.inr (by omega)))

theorem inv_of_deliver {n : ℕ} (hI : VerifyInv jobId w) (he : job.jobId = jobId → w.IsEntry jobId n) :
    VerifyInv jobId (w.deliver jobId i n job) := by
  refine ⟨hI.messages, hI.left, hI.waiting, fun h => ?_, hI.charges⟩
  by_cases hj : job.jobId = jobId
  · exact ⟨n, List.mem_cons_self .., he hj⟩
  · have harmed : (w.deliver jobId i n job).armed = w.armed := by simp [VerifyWorld.deliver, hj]
    rw [harmed] at h
    obtain ⟨n', hn', he'⟩ := hI.worked h
    exact ⟨n', List.mem_cons_of_mem _ hn', he'⟩

theorem verifyThread_deliver {n : ℕ} {party : Party} {p : Proc JobSig Unit} (hI : VerifyInv jobId w)
    (he : job.jobId = jobId → w.IsEntry jobId n) (hT : VerifyThread jobId w j party p) :
    VerifyThread jobId (w.deliver jobId i n job) j party p := by
  rcases party with ⟨userId, id⟩ | ⟨job', again⟩
  · obtain ⟨g, hwp, hg⟩ := hT
    refine ⟨g, hwp, fun hid => ?_⟩
    have hv := hg hid
    cases g <;> exact hv
  · obtain ⟨tally, guarded, hwp, hguard, hrel⟩ := hT
    refine ⟨tally, guarded, hwp, hguard, fun hid => ?_⟩
    obtain ⟨⟨n', hn', he'⟩, harm⟩ := hrel hid
    refine ⟨⟨n', List.mem_cons_of_mem _ hn', he'⟩, fun hmay => ?_⟩
    have hsame : (w.deliver jobId i n job).armed = w.armed := by
      unfold VerifyWorld.deliver
      refine if_neg ?_
      rintro ⟨hj, hn⟩
      exact (untouched_of_first hI (he hj) hn).1 ⟨n', hn', he'⟩
    rw [hsame]
    exact harm hmay

/-! ### Exchanges of a worker -/

section WorkerStep

variable {again guarded : Bool} {tally : Tally} {op : JobOp} {k : Except PyError op.Ans → Proc JobSig Unit}
  {out : Except PyError op.Ans} {took : Bool} {h : ∀ a, out = .ok a → took = true}

theorem inv_of_worker (hI : VerifyInv jobId w) (hwp : wp (jobMonitor job) (.call op k) (fun _ _ => True) tally)
    (hguard : wp guardMonitor (.call op k) (fun _ _ => True) guarded)
    (hrel : job.jobId = jobId → (∃ n ∈ w.delivered, w.IsEntry jobId n) ∧
      (MayCharge again tally guarded → w.armed = some i ∧ w.charges = 0)) :
    VerifyInv jobId (w.apply jobId i (.worker job again) ⟨op, out, took, h⟩) := by
  refine inv_of_calm hI (calm_of_worker hwp) (fun hw => ?_) ?_
  · by_cases hj : job.jobId = jobId
    · exact (hrel hj).1
    · simp only [VerifyWorld.apply, hj, false_and, if_false] at hw
      exact hI.worked hw
  · have hle := hI.charges
    simp only [VerifyWorld.apply]
    split_ifs with hc
    · obtain ⟨-, h0⟩ := armed_of_charge hwp hguard (hrel hc.1).2 hc.2
      omega
    · exact hle

theorem verifyThread_worker (hwp : wp (jobMonitor job) (.call op k) (fun _ _ => True) tally)
    (hguard : wp guardMonitor (.call op k) (fun _ _ => True) guarded)
    (hrel : job.jobId = jobId → (∃ n ∈ w.delivered, w.IsEntry jobId n) ∧
      (MayCharge again tally guarded → w.armed = some i ∧ w.charges = 0))
    (hone : job.jobId = jobId → again = true → passesGuard ⟨op, out, took, h⟩ → w.charges = 0) :
    VerifyThread jobId (w.apply jobId i (.worker job again) ⟨op, out, took, h⟩) i (.worker job again) (k out) := by
  have hcalm : Calm jobId w (w.apply jobId i (.worker job again) ⟨op, out, took, h⟩) := calm_of_worker hwp
  refine ⟨_, _, hwp.2 out took h trivial, hguard.2 out took h trivial, fun hj => ?_⟩
  obtain ⟨⟨n, hn, he⟩, harm⟩ := hrel hj
  refine ⟨⟨n, hn, hcalm.entry n he⟩, fun hmay => ?_⟩
  obtain ⟨hcharge, hmay⟩ := mayCharge_step hwp hmay
  rcases hmay with hmay | ⟨rfl, hpass⟩
  · obtain ⟨ha, h0⟩ := harm hmay
    refine ⟨?_, by simp [VerifyWorld.apply, hcharge, h0]⟩
    simp only [VerifyWorld.apply]
    split_ifs
    · rfl
    · exact ha
  · have h0 := hone hj rfl hpass
    exact ⟨by simp [VerifyWorld.apply, hj, hpass], by simp [VerifyWorld.apply, hcharge, h0]⟩

theorem verifyThread_of_worker {party : Party} {q : Proc JobSig Unit}
    (hwp : wp (jobMonitor job) (.call op k) (fun _ _ => True) tally)
    (hguard : wp guardMonitor (.call op k) (fun _ _ => True) guarded)
    (hrel : job.jobId = jobId → (∃ n ∈ w.delivered, w.IsEntry jobId n) ∧
      (MayCharge again tally guarded → w.armed = some i ∧ w.charges = 0))
    (halone : job.jobId = jobId → again = true → passesGuard ⟨op, out, took, h⟩ →
      ∀ job' again' op' k', party = .worker job' again' → q = .call op' k' → job'.jobId ≠ jobId)
    (hij : j ≠ i) (hT : VerifyThread jobId w j party q) :
    VerifyThread jobId (w.apply jobId i (.worker job again) ⟨op, out, took, h⟩) j party q := by
  have hcalm : Calm jobId w (w.apply jobId i (.worker job again) ⟨op, out, took, h⟩) := calm_of_worker hwp
  by_cases hp : job.jobId = jobId ∧ again = true ∧ passesGuard ⟨op, out, took, h⟩ = true
  · -- no other worker of the job is running: what the others may do with it is over
    have hother := halone hp.1 hp.2.1 hp.2.2
    rcases party with ⟨userId, id⟩ | ⟨job', again'⟩
    · obtain ⟨g, hg, hv⟩ := hT
      exact ⟨g, hg, fun hid => viewed_of_calm hcalm (hv hid)⟩
    · obtain ⟨tally', guarded', hwp', hguard', hrel'⟩ := hT
      by_cases hj : job'.jobId = jobId
      · obtain ⟨⟨n, hn, he⟩, -⟩ := hrel' hj
        refine verifyThread_ended (fun op' k' hq => ?_) ⟨n, hn, hcalm.entry n he⟩
        exact hother job' again' op' k' rfl hq hj
      · exact ⟨tally', guarded', hwp', hguard', fun hid => absurd hid hj⟩
  · refine verifyThread_other hT (fun g hv => viewed_of_calm hcalm hv) hcalm.toKept fun ha h0 => ?_
    simp only [VerifyWorld.apply]
    rw [if_neg hp]
    split_ifs with hc
    · obtain ⟨ha', -⟩ := armed_of_charge hwp hguard (hrel hc.1).2 hc.2
      rw [ha] at ha'
      exact absurd (Option.some.inj ha') hij
    · exact ⟨ha, h0⟩

end WorkerStep

/-! ### The local conditions -/

theorem keyedRead_of_allowed {world : JobWorld} {ev : Event JobSig} (h : world.Allowed ev) : KeyedRead ev := by
  obtain ⟨op, out, took, hk⟩ := ev
  cases op with
  | getJob id =>
    rcases out with e | _ | row
    · trivial
    · trivial
    · have hrow : some row = world.rows.get id := h
      exact (get_some hrow.symm).2
  | _ => trivial

/-- **The invariant of the system** holds of every start, and of every exchange that is one by one. -/
theorem verify_preserved :
    (verifySystem ctx jobId).Preserved (VerifyInv jobId) (VerifyThread jobId) OneByOne where
  start_world {w w' i party p} hI hs := by
    obtain ⟨req, rfl, rfl, rfl⟩ | ⟨wctx, periodKey, n, m, job, hctx, hm, hjob, rfl, rfl, rfl⟩ := hs
    · exact hI
    · exact inv_of_deliver hI fun hj => ⟨m, hm, hj ▸ buildJob_jobId hjob⟩
  start_thread {w w' i party p} hI hs := by
    obtain ⟨req, rfl, rfl, rfl⟩ | ⟨wctx, periodKey, n, m, job, hctx, hm, hjob, rfl, rfl, rfl⟩ := hs
    · exact ⟨.fresh, wp_thread (wp_mono (fun _ _ _ => trivial) verifyUploadSession_spec), fun _ => trivial⟩
    · refine ⟨{}, false, wp_thread (wp_mono (fun _ _ _ => trivial) processJob_spec),
        wp_thread (processJob_guarded hctx periodKey job), fun hj => ?_⟩
      have he : VerifyWorld.IsEntry jobId w n := ⟨m, hm, hj ▸ buildJob_jobId hjob⟩
      refine ⟨⟨n, List.mem_cons_self .., he⟩, fun hmay => ?_⟩
      have hn : n ∉ w.delivered := by simpa [MayCharge] using hmay
      refine ⟨?_, (untouched_of_first hI he hn).2⟩
      exact if_pos ⟨hj, hn⟩
  start_other {w w' i party p} hI hs j party' q hij hT := by
    obtain ⟨req, rfl, rfl, rfl⟩ | ⟨wctx, periodKey, n, m, job, hctx, hm, hjob, rfl, rfl, rfl⟩ := hs
    · exact hT
    · exact verifyThread_deliver hI (fun hj => ⟨m, hm, hj ▸ buildJob_jobId hjob⟩) hT
  act_world {c i party op k out took h} hI hT hall hone := by
    rcases party with ⟨userId, id⟩ | ⟨job, again⟩
    · obtain ⟨g, hwp, hg⟩ := hT
      exact inv_of_move hI (move_of_verify hI hwp hg hall hone).1 rfl rfl
    · obtain ⟨tally, guarded, hwp, hguard, hrel⟩ := hT
      exact inv_of_worker hI hwp hguard hrel
  act_thread {c i party op k out took h} hI hT hall hone := by
    rcases party with ⟨userId, id⟩ | ⟨job, again⟩
    · obtain ⟨g, hwp, hg⟩ := hT
      exact ⟨_, hwp.2 out took h (keyedRead_of_allowed hall), (move_of_verify hI hwp hg hall hone).2⟩
    · obtain ⟨tally, guarded, hwp, hguard, hrel⟩ := hT
      exact verifyThread_worker hwp hguard hrel fun hj ha hp => (hone hj ha hp).1
  act_other {c i party op k out took h} hI hT hall hone j party' q hij hq hT' := by
    rcases party with ⟨userId, id⟩ | ⟨job, again⟩
    · obtain ⟨g, hwp, hg⟩ := hT
      have hmove := @move_of_verify jobId c.world i id g userId op k out took h hI hwp hg hall hone
      exact verifyThread_other hT' (fun _ hv => viewed_other hI hmove.1 hij hv) kept_of_verify fun ha hc => ⟨ha, hc⟩
    · obtain ⟨tally, guarded, hwp, hguard, hrel⟩ := hT
      refine verifyThread_of_worker hwp hguard hrel (fun hj ha hp job' again' op' k' hparty hcall => ?_) hij hT'
      subst hparty hcall
      exact (hone hj ha hp).2 j job' again' op' k' hij hq

end Preservation

/-! ## Runs -/

section Runs

variable {ctx : ServiceContext} {jobId : String}

/-- A start of the system: no thread runs and nothing has happened to the job's message or its charge. -/
def VerifyStart (c : (verifySystem ctx jobId).Config) : Prop :=
  (∀ i, c.threads i = none) ∧ VerifyWorld.messages jobId c.world = 0 ∧ c.world.left = [] ∧
    c.world.armed = none ∧ c.world.charges = 0

theorem inv_of_verifyStart {c : (verifySystem ctx jobId).Config} (hc : VerifyStart c) :
    (verifySystem ctx jobId).Inv (VerifyInv jobId) (VerifyThread jobId) c := by
  obtain ⟨hfree, hm, hl, ha, hch⟩ := hc
  refine ⟨⟨by rw [hm]; omega, by rw [hl]; simp, fun _ => hl, fun h => ?_, by rw [hch]; omega⟩, fun i party p h => ?_⟩
  · rw [ha, hch] at h
    simp at h
  · rw [hfree i] at h
    cases h

/-- The job has one message and one charge at most, and a finalize call leaves the status of a job that has left
AWAITING_UPLOAD. -/
def ChargedOnce (c : (verifySystem ctx jobId).Config) (l : (verifySystem ctx jobId).Label)
    (c' : (verifySystem ctx jobId).Config) : Prop :=
  VerifyWorld.messages jobId c'.world ≤ 1 ∧ VerifyWorld.charges c'.world ≤ 1 ∧
    match l with
    | .act _ (.verify _ _) _ => ¬ VerifyWorld.Waiting jobId c.world →
      (JobRows.get c'.world.jobs.rows jobId).map (·.status) = (JobRows.get c.world.jobs.rows jobId).map (·.status)
    | _ => True

theorem status_of_verify {w : VerifyWorld} {i : ℕ} {userId : ℤ} {id : Option String} {g : View} {op : JobOp}
    {k : Except PyError op.Ans → Proc JobSig Unit} {out : Except PyError op.Ans} {took : Bool}
    {h : ∀ a, out = .ok a → took = true} (hwp : wp (verifyMonitor id) (.call op k) (fun _ _ => True) g)
    (hone : ∀ job, updateOf ⟨op, out, took, h⟩ = some job → job.jobId = jobId → w.Waiting jobId)
    (hw : ¬ w.Waiting jobId) :
    (w.apply jobId i (.verify userId id) ⟨op, out, took, h⟩).jobs.rows.get jobId = w.jobs.rows.get jobId := by
  have hpre : VerifyPermitted id g op := hwp.1
  cases op with
  | updateJob job =>
    rcases took with _ | _
    · rfl
    · have hne : job.jobId ≠ jobId := fun hj => hw (hone job rfl hj)
      exact get_update_of_ne hne
  | publishJob stream m => rcases took with _ | _ <;> rfl
  | getJob id => rfl
  | uploads op => rfl
  | _ => exact hpre.elim

/-- **One job, one charge**: along every run in which the finalize calls' UPDATEs find the job AWAITING_UPLOAD and
redelivered entries find it uncharged and alone, it is published and charged at most once, and no finalize call
writes over its later statuses. -/
theorem charged_once {c : (verifySystem ctx jobId).Config}
    {tr : List ((verifySystem ctx jobId).Label × (verifySystem ctx jobId).Config)} (hc : VerifyStart c)
    (hs : (verifySystem ctx jobId).Steps c tr) (hone : Along (ActOnly OneByOne) c tr) : Along ChargedOnce c tr := by
  refine along_of_preserved verify_preserved (fun c l c' hI hst hφ => ?_) (inv_of_verifyStart hc) hs hone
  have hI' := (inv_step verify_preserved hI hst hφ).1
  refine ⟨hI'.messages.trans hI'.left, hI'.charges, ?_⟩
  cases hst with
  | @start i party p w hfree hspawn => trivial
  | @exit i => trivial
  | @act i party op k hrun out took h hall =>
    have hT := hI.2 i party _ hrun
    rcases party with ⟨userId, id⟩ | ⟨job, again⟩
    · obtain ⟨g, hwp, -⟩ := hT
      exact fun hw => congrArg _ (status_of_verify hwp hφ hw)
    · trivial

/-! ### Concrete runs -/

def verifyDriver : (verifySystem ctx jobId).Driver where
  reply w := JobWorld.reply w.jobs
  check w _ _ ev := @decide _ (JobWorld.decidableAllowed w.jobs ev)
  sound h := @of_decide_eq_true _ (JobWorld.decidableAllowed _ _) h

def startVerify (req : VerifyRequest) (i : ℕ) : (verifySystem ctx jobId).Starter i where
  start w := some (.verify req.userId req.jobId, thread (verifyUploadSession ctx req), w)
  sound h := by
    cases h
    exact .inl ⟨req, rfl, rfl, rfl⟩

/-- A worker that is delivered entry `n`. -/
def startDelivery {m : Fields} {job : ConversionJob} (hjob : buildJob m = .ok job) (n i : ℕ) :
    (verifySystem ctx jobId).Starter i where
  start w :=
    if VerifyWorld.entry w n = some m then
      some (.worker job (n ∈ VerifyWorld.delivered w), thread (processJob wiredContext "2026-07" job),
        VerifyWorld.deliver jobId w i n job)
    else none
  sound h := by
    split_ifs at h with hm
    cases h
    exact .inr ⟨wiredContext, "2026-07", n, m, job, rfl, hm, hjob, rfl, rfl, rfl⟩

/-- A finalize call of user 7's upload for the job that waits for it. -/
def finalizeOne : VerifyRequest := ⟨"upload-1", 7, [], some "job-1"⟩

def waitingWorld : (verifySystem wiredService "job-1").Config where
  world := { jobs := { rows := [{ deliveredJob with status := .awaitingUpload, objectKey := "" }], published := [] } }
  threads _ := none

theorem start_waitingWorld : VerifyStart waitingWorld := ⟨fun _ => rfl, rfl, rfl, rfl, rfl⟩

abbrev VerifyRun : Type :=
  List ((verifySystem wiredService "job-1").Label × (verifySystem wiredService "job-1").Config)

abbrev VerifyMoves : Type := List (verifySystem wiredService "job-1").Move

/-- One finalize call, a worker that takes its message up and completes the job, and another that is delivered the
message again. -/
def verifyThenWork : VerifyRun :=
  Sys.drive verifyDriver waitingWorld
    ((.start 0 (startVerify finalizeOne 0) :: List.replicate 8 (.go 0) : VerifyMoves) ++
      (.start 1 (startDelivery buildJob_delivered 0 1) :: List.replicate 19 (.go 1) : VerifyMoves) ++
      (.start 2 (startDelivery buildJob_delivered 0 2) :: List.replicate 2 (.go 2) : VerifyMoves))

/-- Two finalize calls one after the other, and a worker for each of their messages; both pass the guard before
either has completed the job. -/
def verifyTwice : VerifyRun :=
  Sys.drive verifyDriver waitingWorld
    ((.start 0 (startVerify finalizeOne 0) :: List.replicate 8 (.go 0) : VerifyMoves) ++
      (.start 1 (startVerify finalizeOne 1) :: List.replicate 7 (.go 1) : VerifyMoves) ++
      (.start 2 (startDelivery buildJob_delivered 0 2) :: .start 3 (startDelivery buildJob_delivered 1 3) :: .go 3 ::
      List.replicate 18 (.go 2) : VerifyMoves) ++ (List.replicate 17 (.go 3) : VerifyMoves))

/-- Finalize calls write what they find AWAITING_UPLOAD, and a redelivered entry does not pass the guard. -/
def StopsAtGuard (w : VerifyWorld) : Party → Event JobSig → Prop
  | .verify _ _, ev => (updateOf ev).isSome = true → w.Waiting "job-1"
  | .worker _ again, ev => again = true → passesGuard ev = false

def StopsAtGuardAt (c : (verifySystem wiredService "job-1").Config) (_ : ℕ) (party : Party) (ev : Event JobSig) : Prop :=
  StopsAtGuard c.world party ev

instance decidableStopsAtGuard (w : VerifyWorld) :
    ∀ (party : Party) (ev : Event JobSig), Decidable (StopsAtGuard w party ev)
  | .verify _ _, ev => inferInstanceAs (Decidable ((updateOf ev).isSome = true → w.Waiting "job-1"))
  | .worker _ again, ev => inferInstanceAs (Decidable (again = true → passesGuard ev = false))

instance decidableStopsAtGuardAt (c : (verifySystem wiredService "job-1").Config) (i : ℕ) (party : Party)
    (ev : Event JobSig) : Decidable (StopsAtGuardAt c i party ev) := decidableStopsAtGuard c.world party ev

theorem oneByOne_of_stops {c : (verifySystem wiredService "job-1").Config} {i : ℕ} {party : Party} {ev : Event JobSig}
    (h : StopsAtGuardAt c i party ev) : OneByOne c i party ev := by
  cases party with
  | verify _ _ => exact fun job hjob _ => h (by rw [hjob]; rfl)
  | worker job again =>
    intro _ hagain hpasses
    rw [h hagain] at hpasses
    cases hpasses

theorem charged_once_verifyThenWork : Along ChargedOnce waitingWorld verifyThenWork ∧
    (lastConfig waitingWorld verifyThenWork).world.charges = 1 := by
  refine ⟨charged_once start_waitingWorld (steps_drive _ _ _) ?_, by rfl⟩
  refine along_mono (fun c l c' h => ?_) (@of_decide_eq_true _
    (@decidableAlong _ _ _ (@decidableActOnly _ _ _ decidableStopsAtGuardAt) waitingWorld verifyThenWork) (by decide +kernel))
  cases l with
  | act i party ev => exact oneByOne_of_stops h
  | _ => trivial

/-- A second finalize call publishes a second message, and the job is charged twice. -/
theorem charged_twice : ¬ ∀ (ctx : ServiceContext) (jobId : String) (c : (verifySystem ctx jobId).Config)
    (tr : List ((verifySystem ctx jobId).Label × (verifySystem ctx jobId).Config)), VerifyStart c →
    (verifySystem ctx jobId).Steps c tr → Along ChargedOnce c tr := by
  intro h
  have hrun := h wiredService "job-1" waitingWorld verifyTwice start_waitingWorld (steps_drive _ _ _)
  have hcharges : (lastConfig waitingWorld verifyTwice).world.charges ≤ 1 :=
    last_of_along (K := fun c : (verifySystem wiredService "job-1").Config => VerifyWorld.charges c.world ≤ 1)
      (by decide) (along_mono (fun _ _ _ hc => hc.2.1) hrun)
  have htwo : (lastConfig waitingWorld verifyTwice).world.charges = 2 := by rfl
  omega

end Runs

end Transform.Conversions
