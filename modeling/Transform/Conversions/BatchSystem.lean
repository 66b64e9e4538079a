import Transform.Conversions.BatchRequest

/-!
# Conversions.BatchSystem — batch requests and workers on one table

Any number of `create_batch` requests and of workers, started at any time, interleaved call by call; a worker may
be delivered any published message, again and again, and any thread may end at any point.  `BatchInv` and
`BatchThread` are what holds in every reachable state.  Against it:

* `grouped_iff`: every stamped row stays in its batch exactly if no worker's UPDATE reaches a stamped row.
* `stamp_keeps_results_iff`: the requests leave what workers have persisted exactly if none of their UPDATEs
  reaches a row a worker has written.
-/

namespace Transform.Conversions

open Lib Billing Worker

/-- The system: threads are batch requests, or workers with a published message. -/
def batchSystem (ctx : ServiceContext) : Sys JobSig where
  World := JobWorld
  Tag := Actor
  spawn w _ actor p w' := w' = w ∧
    ((∃ req : BatchRequest, actor = .createBatch req.userId ∧ p = thread (createBatch ctx req)) ∨
      ∃ wctx periodKey m job, m ∈ w.published ∧ buildJob m = .ok job ∧ actor = .worker job ∧
        p = thread (processJob wctx periodKey job))
  Allowed w _ _ ev := w.Allowed ev
  apply := JobWorld.apply

/-! ## The invariant -/

section Invariant

/-- The world: an id has one owner, a stamped row is there with its owner, and a row that a worker wrote and no
request stamped since is in a status that workers write. -/
structure BatchInv (w : JobWorld) : Prop where
  owner : ∀ id i j, (id, i) ∈ w.issued → (id, j) ∈ w.issued → i = j
  stamped : ∀ s ∈ w.stamps, (w.rows.get s.jobId).map (·.userId) = some (some s.owner)
  wrote_published : ∀ id ∈ w.workerWrote, ∃ m ∈ w.published, m.lookup "job_id" = some id
  wrote_row : ∀ id ∈ w.workerWrote, ∃ row, w.rows.get id = some row ∧
    ((∀ s ∈ w.stamps, s.jobId ≠ id) → row.status ≠ .pending)

/-- The draft of thread `i`: its id is the thread's own and unstamped, the table and the streams are as it says. -/
structure Drafted (w : JobWorld) (i : ℕ) (userId : ℤ) (d : Draft) : Prop where
  owned : (d.jobId, i) ∈ w.issued
  unstamped : ∀ s ∈ w.stamps, s.jobId ≠ d.jobId
  row : (w.rows.get d.jobId).map (·.userId) = if d.saved then some (some userId) else none
  unpublished : d.published = false → ∀ m ∈ w.published, m.lookup "job_id" ≠ some d.jobId

/-- A thread: a request that keeps to its draft, or a worker of a published message. -/
def BatchThread (w : JobWorld) (i : ℕ) : Actor → Proc JobSig Unit → Prop
  | .createBatch userId, p =>
    ∃ g, wp (batchMonitor userId) p (fun _ _ => True) g ∧ ∀ d, g = some d → Drafted w i userId d
  | .worker job, p => job.batchId = none ∧ (∃ m ∈ w.published, m.lookup "job_id" = some job.jobId) ∧
    ∃ g, wp (jobMonitor job) p (fun _ _ => True) g
  | .verify _, _ => False

/-- The parts of the world the invariant speaks of are the same. -/
structure Same (w w' : JobWorld) : Prop where
  rows : w'.rows = w.rows
  published : w'.published = w.published
  issued : w'.issued = w.issued
  stamps : w'.stamps = w.stamps
  workerWrote : w'.workerWrote = w.workerWrote

/-- What one exchange of a batch request can do. -/
inductive Requested (w : JobWorld) (i : ℕ) (userId : ℤ) (g : Option Draft) :
    Option ConversionJob → JobWorld → Option Draft → Prop
  | drew (id : String) (hfresh : w.Fresh id) :
      Requested w i userId g none { w with issued := (id, i) :: w.issued } (some ⟨id, false, false⟩)
  | inserted (row : ConversionJob) (hg : g = some ⟨row.jobId, false, false⟩) (hu : row.userId = some userId) :
      Requested w i userId g none { w with rows := w.rows.insert row } (some ⟨row.jobId, true, false⟩)
  | left (job : ConversionJob) (hg : g = some ⟨job.jobId, true, false⟩) :
      Requested w i userId g (some job) { w with rows := w.rows.update job } g
  | stamped (job : ConversionJob) (batchId : String) (published : Bool) (hg : g = some ⟨job.jobId, true, published⟩)
      (hs : job.status = .pending) (hb : job.batchId = some batchId) :
      Requested w i userId g (some job)
        { w with
          rows := w.rows.update job, stamps := ⟨job.jobId, batchId, job.workflowId, userId⟩ :: w.stamps } none
  | published (m : Fields) (d : Draft) (hg : g = some d) (hm : m.lookup "job_id" = some d.jobId) :
      Requested w i userId g none { w with published := m :: w.published } (some { d with published := true })
  | quiet (g' : Option Draft) (hg : ∀ d', g' = some d' → ∃ d, g = some d ∧ d'.jobId = d.jobId ∧
      d'.saved = d.saved ∧ (d'.published = false → d.published = false)) : Requested w i userId g none w g'

theorem requested_of_wp {w : JobWorld} {i : ℕ} {userId : ℤ} {g : Option Draft} {op : JobOp}
    {k : Except PyError op.Ans → Proc JobSig Unit} {out : Except PyError op.Ans} {took : Bool}
    {h : ∀ a, out = .ok a → took = true}
    (hwp : wp (batchMonitor userId) (.call op k) (fun _ _ => True) g) (hall : w.Allowed ⟨op, out, took, h⟩) :
    Requested w i userId g (updateOf ⟨op, out, took, h⟩) (w.apply i (.createBatch userId) ⟨op, out, took, h⟩)
      (draftStep g ⟨op, out, took, h⟩) := by
  have hpre : BatchPermitted userId g op := hwp.1
  have same : ∀ d' : Draft, g = some d' → ∃ d, g = some d ∧ d'.jobId = d.jobId ∧ d'.saved = d.saved ∧
      (d'.published = false → d.published = false) := fun d' h => ⟨d', h, rfl, rfl, id⟩
  cases op with
  | uuid4 =>
    rcases out with e | newId
    · exact .quiet g same
    · exact .drew newId hall
  | utcNow => exact .quiet g same
  | insertJob row =>
    obtain ⟨rfl, hu⟩ := hpre
    rcases took with _ | _
    · exact .quiet _ fun d' hd' => ⟨d', hd', rfl, rfl, fun h => h⟩
    · exact .inserted row rfl hu
  | updateJob job =>
    obtain ⟨published, rfl, hs, hp⟩ := hpre
    rcases hb : job.batchId with _ | batchId
    · obtain rfl := hp hb
      rcases took with _ | _
      · refine .quiet _ fun d' hd' => ?_
        simp only [draftStep, hb, Option.isSome_none, Bool.false_eq_true, if_false] at hd'
        exact ⟨d', hd', rfl, rfl, fun h => h⟩
      · have hstep : draftStep (some ⟨job.jobId, true, false⟩) ⟨.updateJob job, out, true, h⟩ =
            some ⟨job.jobId, true, false⟩ := by simp [draftStep, hb]
        have happly : w.apply i (.createBatch userId) ⟨.updateJob job, out, true, h⟩ =
            { w with rows := w.rows.update job } := by simp [JobWorld.apply, JobWorld.write, hb]
        rw [hstep, happly]
        exact .left job rfl
    · rcases took with _ | _
      · refine .quiet _ fun d' hd' => ?_
        simp [draftStep, hb] at hd'
      · have hstep : draftStep (some ⟨job.jobId, true, published⟩) ⟨.updateJob job, out, true, h⟩ = none := by
          simp [draftStep, hb]
        have happly : w.apply i (.createBatch userId) ⟨.updateJob job, out, true, h⟩ =
            { w with
              rows := w.rows.update job
              stamps := ⟨job.jobId, batchId, job.workflowId, userId⟩ :: w.stamps } := by
          simp [JobWorld.apply, JobWorld.write, hb]
        rw [hstep, happly]
        exact .stamped job batchId published rfl hs hb
  | publishJob stream m =>
    obtain ⟨d, rfl, hm⟩ := hpre
    rcases took with _ | _
    · refine .quiet _ fun d' hd' => ⟨d, rfl, ?_⟩
      obtain rfl : { d with published := true } = d' := by simpa [draftStep] using hd'
      exact ⟨rfl, rfl, fun h => by cases h⟩
    · exact .published m d rfl hm
  | getJob jobId => exact hpre.elim
  | publishEvent event => exact hpre.elim
  | getAvailableTotal userId periodKey => exact hpre.elim
  | getTier userId => exact hpre.elim
  | consume userId periodKey units origin => exact hpre.elim
  | file op => exact hpre.elim
  | uploads op => exact hpre.elim

/-- What one exchange of a worker can do to the table: write the row of its job, without grouping columns. -/
inductive Worked (w : JobWorld) (job : ConversionJob) : Option ConversionJob → JobWorld → Prop
  | wrote (row : ConversionJob) (hid : row.jobId = job.jobId) (hb : row.batchId = job.batchId)
      (hs : row.status ≠ .pending) : Worked w job (some row) (w.write (.worker job) row)
  | quiet (w' : JobWorld) (hsame : Same w w') : Worked w job none w'

theorem worked_of_wp {w : JobWorld} {i : ℕ} {job : ConversionJob} {g : Tally} {op : JobOp}
    {k : Except PyError op.Ans → Proc JobSig Unit} {out : Except PyError op.Ans} {took : Bool}
    {h : ∀ a, out = .ok a → took = true} (hwp : wp (jobMonitor job) (.call op k) (fun _ _ => True) g) :
    Worked w job (updateOf ⟨op, out, took, h⟩) (w.apply i (.worker job) ⟨op, out, took, h⟩) := by
  have hpre : Permitted job g op := hwp.1
  have same : Same w w := ⟨rfl, rfl, rfl, rfl, rfl⟩
  cases op with
  | updateJob row =>
    obtain ⟨hid, hb, -, hs, -⟩ := hpre
    rcases took with _ | _
    · exact .quiet w same
    · refine .wrote row hid hb ?_
      rcases hs with hs | hs | hs <;> rw [hs] <;> decide
  | consume userId periodKey units origin => exact .quiet w same
  | getJob jobId => exact .quiet w same
  | publishEvent event => exact .quiet w same
  | getAvailableTotal userId periodKey => exact .quiet w same
  | getTier userId => exact .quiet w same
  | file op => exact .quiet w same
  | uuid4 => exact hpre.elim
  | utcNow => exact hpre.elim
  | insertJob row => exact hpre.elim
  | publishJob stream m => exact hpre.elim
  | uploads op => exact hpre.elim

end Invariant

/-! ## The invariant is preserved -/

section Preservation

variable {w w' : JobWorld} {i j : ℕ} {userId : ℤ} {d d' : Draft} {g g' : Option Draft} {job : ConversionJob}
  {u : Option ConversionJob}

theorem drafted_of_frame (h : Drafted w i userId d) (hissued : ∀ x ∈ w.issued, x ∈ w'.issued)
    (hstamps : ∀ s ∈ w'.stamps, s ∈ w.stamps ∨ s.jobId ≠ d.jobId)
    (hrow : (w'.rows.get d.jobId).map (·.userId) = (w.rows.get d.jobId).map (·.userId))
    (hpub : ∀ m ∈ w'.published, m ∈ w.published ∨ m.lookup "job_id" ≠ some d.jobId) : Drafted w' i userId d where
  owned := hissued _ h.owned
  unstamped s hs := (hstamps s hs).elim (h.unstamped s) id
  row := hrow.trans h.row
  unpublished hp m hm := (hpub m hm).elim (h.unpublished hp m) id

theorem drafted_of_same (h : Drafted w i userId d) (hs : Same w w') : Drafted w' i userId d :=
  drafted_of_frame h (fun _ hx => hs.issued ▸ hx) (fun _ hx => .inl (hs.stamps ▸ hx)) (by rw [hs.rows])
    fun _ hx => .inl (hs.published ▸ hx)

theorem get_isSome_of_wrote (hI : BatchInv w) {id : String} (h : id ∈ w.workerWrote) :
    ∃ row, w.rows.get id = some row := by
  obtain ⟨row, hrow, -⟩ := hI.wrote_row id h
  exact ⟨row, hrow⟩

theorem wrote_ne_of_unpublished (hI : BatchInv w) (hd : Drafted w i userId d) (hp : d.published = false)
    {id : String} (h : id ∈ w.workerWrote) : id ≠ d.jobId := by
  rintro rfl
  obtain ⟨m, hm, hid⟩ := hI.wrote_published d.jobId h
  exact hd.unpublished hp m hm hid

/-- An exchange of a request keeps the invariant of the world. -/
theorem inv_of_requested (hI : BatchInv w) (hg : ∀ d, g = some d → Drafted w i userId d)
    (hr : Requested w i userId g u w' g') : BatchInv w' := by
  cases hr with
  | drew id hfresh =>
    refine ⟨fun id' i' j' hi hj => ?_, hI.stamped, hI.wrote_published, hI.wrote_row⟩
    have hnew : ∀ n, (id, n) ∉ w.issued := fun n hn => hfresh.2.2.1 (List.mem_map_of_mem hn)
    rcases List.mem_cons.1 hi with hi | hi <;> rcases List.mem_cons.1 hj with hj | hj
    · cases hi
      cases hj
      rfl
    · cases hi
      exact absurd hj (hnew j')
    · cases hj
      exact absurd hi (hnew i')
    · exact hI.owner id' i' j' hi hj
  | inserted row hd hu =>
    have hnone : (w.rows.get row.jobId).map (·.userId) = none := (hg _ hd).row
    have keep : ∀ {id : String} {r : ConversionJob}, w.rows.get id = some r → (w.rows.insert row).get id = some r := by
      intro id r hr
      rw [get_insert, hr, Option.some_or]
    refine ⟨hI.owner, fun s hs => ?_, hI.wrote_published, fun id hid => ?_⟩
    · have h := hI.stamped s hs
      obtain ⟨r, hr, -⟩ := Option.map_eq_some_iff.1 h
      rw [keep hr, ← hr]
      exact h
    · obtain ⟨r, hr, hst⟩ := hI.wrote_row id hid
      exact ⟨r, keep hr, hst⟩
  | left job hd =>
    refine ⟨hI.owner, fun s hs => ?_, hI.wrote_published, fun id hid => ?_⟩
    · rw [get_update_userId]
      exact hI.stamped s hs
    · have hne : job.jobId ≠ id := (wrote_ne_of_unpublished hI (hg _ hd) rfl hid).symm
      rw [get_update_of_ne hne]
      exact hI.wrote_row id hid
  | stamped job batchId published hd hs hb =>
    have hrow : (w.rows.get job.jobId).map (·.userId) = some (some userId) := (hg _ hd).row
    refine ⟨hI.owner, fun s hs => ?_, hI.wrote_published, fun id hid => ?_⟩
    · rw [get_update_userId]
      rcases List.mem_cons.1 hs with rfl | hs
      · exact hrow
      · exact hI.stamped s hs
    · obtain ⟨r, hr, hst⟩ := hI.wrote_row id hid
      by_cases hne : job.jobId = id
      · subst hne
        refine ⟨r.updated job, by rw [get_update, if_pos rfl, hr]; rfl, fun h => ?_⟩
        exact absurd rfl (h _ (List.mem_cons_self ..))
      · exact ⟨r, by rw [get_update_of_ne hne, hr], fun h => hst fun s hs => h s (List.mem_cons_of_mem _ hs)⟩
  | published m d hd hm =>
    refine ⟨hI.owner, hI.stamped, fun id hid => ?_, hI.wrote_row⟩
    obtain ⟨m', hm', h⟩ := hI.wrote_published id hid
    exact ⟨m', List.mem_cons_of_mem _ hm', h⟩
  | quiet g' hg => exact hI

theorem drafted_of_requested (hI : BatchInv w) (hg : ∀ d, g = some d → Drafted w i userId d)
    (hr : Requested w i userId g u w' g') : ∀ d, g' = some d → Drafted w' i userId d := by
  cases hr with
  | drew id hfresh =>
    rintro d hd
    obtain rfl : (⟨id, false, false⟩ : Draft) = d := by simpa using hd
    refine ⟨List.mem_cons_self .., fun s hs hid => ?_, ?_, fun _ => hfresh.2.2.2⟩
    · have h := hI.stamped s hs
      rw [hid, hfresh.2.1] at h
      cases h
    · rw [hfresh.2.1]
      rfl
  | inserted row hd hu =>
    rintro d hd'
    obtain rfl : (⟨row.jobId, true, false⟩ : Draft) = d := by simpa using hd'
    have h := hg _ hd
    have hnone : w.rows.get row.jobId = none := by simpa using h.row
    refine ⟨h.owned, h.unstamped, ?_, h.unpublished⟩
    simp only [get_insert, hnone, Option.none_or, if_true, Option.map_some, hu]
  | left job hd =>
    intro d hd'
    exact drafted_of_frame (hg d hd') (fun _ h => h) (fun _ h => .inl h) get_update_userId fun _ h => .inl h
  | stamped job batchId published hd hs hb =>
    rintro d hd'
    cases hd'
  | published m d₀ hd hm =>
    rintro d hd'
    obtain rfl : ({ d₀ with published := true } : Draft) = d := by simpa using hd'
    have h := hg _ hd
    exact ⟨h.owned, h.unstamped, h.row, fun h => by cases h⟩
  | quiet g' hq =>
    intro d' hd'
    obtain ⟨d, hd, hid, hsaved, hpub⟩ := hq d' hd'
    have h := hg d hd
    exact ⟨hid ▸ h.owned, hid ▸ h.unstamped, by rw [hid, hsaved]; exact h.row,
      fun hp => by rw [hid]; exact h.unpublished (hpub hp)⟩

theorem drafted_other_of_requested (hI : BatchInv w) (hg : ∀ d, g = some d → Drafted w i userId d)
    (hr : Requested w i userId g u w' g') {userId' : ℤ} (hij : j ≠ i) (hd' : Drafted w j userId' d') :
    Drafted w' j userId' d' := by
  have other : ∀ d, g = some d → d.jobId ≠ d'.jobId := fun d hd hid => by
    have h := (hg d hd).owned
    rw [hid] at h
    exact hij (hI.owner _ _ _ hd'.owned h)
  have stay : ∀ {ws : List Stamp}, ∀ s ∈ ws, s ∈ ws ∨ s.jobId ≠ d'.jobId := fun s hs => .inl hs
  have quiet : ∀ {ms : List Fields}, ∀ m ∈ ms, m ∈ ms ∨ m.lookup "job_id" ≠ some d'.jobId := fun m hm => .inl hm
  cases hr with
  | drew id hfresh => exact drafted_of_frame hd' (fun _ => List.mem_cons_of_mem _) stay rfl quiet
  | inserted row hd hu =>
    refine drafted_of_frame hd' (fun _ h => h) stay ?_ quiet
    rw [get_insert_of_ne (other _ hd)]
  | left job hd => exact drafted_of_frame hd' (fun _ h => h) stay get_update_userId quiet
  | stamped job batchId published hd hs hb =>
    refine drafted_of_frame hd' (fun _ h => h) (fun s hs => ?_) get_update_userId quiet
    rcases List.mem_cons.1 hs with rfl | hs
    · exact .inr (other _ hd)
    · exact .inl hs
  | published m d hd hm =>
    refine drafted_of_frame hd' (fun _ h => h) stay rfl fun m' hm' => ?_
    rcases List.mem_cons.1 hm' with rfl | hm'
    · right
      rw [hm]
      intro h
      exact other d hd (Option.some.inj h)
    · exact .inl hm'
  | quiet g' hq => exact hd'

theorem write_worker_fields (row : ConversionJob) : (w.write (.worker job) row).rows = w.rows.update row ∧
    (w.write (.worker job) row).published = w.published ∧ (w.write (.worker job) row).issued = w.issued ∧
    (w.write (.worker job) row).stamps = w.stamps ∧
    ∀ id ∈ (w.write (.worker job) row).workerWrote,
      id ∈ w.workerWrote ∨ id = row.jobId ∧ (w.rows.get row.jobId).isSome := by
  unfold JobWorld.write
  split_ifs with h
  · exact ⟨rfl, rfl, rfl, rfl, fun id hid => (List.mem_cons.1 hid).elim (fun h' => .inr ⟨h', h⟩) .inl⟩
  · exact ⟨rfl, rfl, rfl, rfl, fun id hid => .inl hid⟩

/-- An exchange of a worker keeps the invariant of the world. -/
theorem inv_of_worked (hI : BatchInv w) (hpub : ∃ m ∈ w.published, m.lookup "job_id" = some job.jobId)
    (hw : Worked w job u w') : BatchInv w' := by
  cases hw with
  | wrote row hid hb hs =>
    obtain ⟨hrows, hpublished, hissued, hstamps, hwrote⟩ := @write_worker_fields w job row
    refine ⟨by rw [hissued]; exact hI.owner, fun s h => ?_, fun id h => ?_, fun id h => ?_⟩
    · rw [hrows, get_update_userId]
      exact hI.stamped s (hstamps ▸ h)
    · rw [hpublished]
      rcases hwrote id h with h | ⟨rfl, -⟩
      · exact hI.wrote_published id h
      · rw [hid]
        exact hpub
    · rw [hrows, hstamps]
      by_cases hne : row.jobId = id
      · subst hne
        obtain ⟨r, hr⟩ : ∃ r, w.rows.get row.jobId = some r := by
          rcases hwrote _ h with h | ⟨-, h⟩
          · exact get_isSome_of_wrote hI h
          · exact Option.isSome_iff_exists.1 h
        exact ⟨r.updated row, by rw [get_update, if_pos rfl, hr]; rfl, fun _ => hs⟩
      · rw [get_update_of_ne hne]
        rcases hwrote id h with h | ⟨rfl, -⟩
        · exact hI.wrote_row id h
        · exact absurd rfl hne
  | quiet w' hsame =>
    refine ⟨by rw [hsame.issued]; exact hI.owner, ?_, ?_, ?_⟩
    · rw [hsame.stamps, hsame.rows]
      exact hI.stamped
    · rw [hsame.workerWrote, hsame.published]
      exact hI.wrote_published
    · rw [hsame.workerWrote, hsame.rows, hsame.stamps]
      exact hI.wrote_row

/-- An exchange of a worker leaves the drafts of requests. -/
theorem drafted_of_worked (hw : Worked w job u w') (hd : Drafted w i userId d) : Drafted w' i userId d := by
  cases hw with
  | wrote row hid hb hs =>
    obtain ⟨hrows, hpublished, hissued, hstamps, -⟩ := @write_worker_fields w job row
    exact drafted_of_frame hd (fun _ h => hissued ▸ h) (fun _ h => .inl (hstamps ▸ h))
      (by rw [hrows, get_update_userId]) fun _ h => .inl (hpublished ▸ h)
  | quiet w' hsame => exact drafted_of_same hd hsame

theorem published_of_requested {m : Fields} (hr : Requested w i userId g u w' g') (h : m ∈ w.published) :
    m ∈ w'.published := by
  cases hr with
  | published m' d hd hm => exact List.mem_cons_of_mem _ h
  | _ => exact h

theorem published_of_worked {m : Fields} (hw : Worked w job u w') (h : m ∈ w.published) : m ∈ w'.published := by
  cases hw with
  | wrote row hid hb hs => rwa [(@write_worker_fields w job row).2.1]
  | quiet w' hsame => rwa [hsame.published]

theorem batchThread_other {actor : Actor} {p : Proc JobSig Unit} (hT : BatchThread w j actor p)
    (hd : ∀ userId d, Drafted w j userId d → Drafted w' j userId d)
    (hpub : ∀ m ∈ w.published, m ∈ w'.published) : BatchThread w' j actor p := by
  rcases actor with userId | userId | job
  · obtain ⟨g, hwp, hg⟩ := hT
    exact ⟨g, hwp, fun d h => hd userId d (hg d h)⟩
  · exact hT
  · obtain ⟨hb, ⟨m, hm, hid⟩, hwp⟩ := hT
    exact ⟨hb, ⟨m, hpub m hm, hid⟩, hwp⟩

variable {ctx : ServiceContext}

/-- **The invariant of the system** holds of every start and every exchange. -/
theorem batch_preserved : (batchSystem ctx).Preserved BatchInv BatchThread fun _ _ _ _ => True where
  start_world hI hs := hs.1 ▸ hI
  start_thread {w w' i actor p} hI hs := by
    obtain ⟨rfl, ⟨req, rfl, rfl⟩ | ⟨wctx, periodKey, m, job, hm, hjob, rfl, rfl⟩⟩ := hs
    · refine ⟨none, wp_thread (wp_mono (fun _ _ _ => trivial) createBatch_spec), fun d hd => ?_⟩
      cases hd
    · exact ⟨(buildJob_ok hjob).2.2.1, ⟨m, hm, buildJob_jobId hjob⟩, {},
        wp_thread (wp_mono (fun _ _ _ => trivial) processJob_spec)⟩
  start_other hI hs j actor q hj hT := hs.1 ▸ hT
  act_world {c i actor op k out took h} hI hT hall _ := by
    rcases actor with userId | userId | job
    · obtain ⟨g, hwp, hg⟩ := hT
      exact inv_of_requested hI hg (requested_of_wp hwp hall)
    · exact hT.elim
    · obtain ⟨hb, hpub, g, hwp⟩ := hT
      exact inv_of_worked hI hpub (worked_of_wp hwp)
  act_thread {c i actor op k out took h} hI hT hall _ := by
    rcases actor with userId | userId | job
    · obtain ⟨g, hwp, hg⟩ := hT
      exact ⟨_, hwp.2 out took h trivial, drafted_of_requested hI hg (requested_of_wp hwp hall)⟩
    · exact hT.elim
    · obtain ⟨hb, ⟨m, hm, hid⟩, g, hwp⟩ := hT
      exact ⟨hb, ⟨m, published_of_worked (worked_of_wp hwp) hm, hid⟩, _, hwp.2 out took h trivial⟩
  act_other {c i actor op k out took h} hI hT hall _ j actor' q hj _ hT' := by
    rcases actor with userId | userId | job
    · obtain ⟨g, hwp, hg⟩ := hT
      have hr := @requested_of_wp c.world i userId g op k out took h hwp hall
      exact batchThread_other hT' (fun _ _ hd => drafted_other_of_requested hI hg hr hj hd)
        fun m hm => published_of_requested hr hm
    · exact hT.elim
    · obtain ⟨hb, hpub, g, hwp⟩ := hT
      have hw := @worked_of_wp c.world i job g op k out took h hwp
      exact batchThread_other hT' (fun _ _ hd => drafted_of_worked hw hd) fun m hm => published_of_worked hw hm

end Preservation

/-! ## Runs -/

section Runs

variable {ctx : ServiceContext}

/-- A start of the system: no thread runs and nothing has happened to the ids that will be drawn.  The table and
the streams may hold anything. -/
def BatchStart (c : (batchSystem ctx).Config) : Prop :=
  (∀ i, c.threads i = none) ∧ c.world.issued = [] ∧ c.world.stamps = [] ∧ c.world.workerWrote = []

theorem inv_of_start {c : (batchSystem ctx).Config} (hc : BatchStart c) :
    (batchSystem ctx).Inv BatchInv BatchThread c := by
  obtain ⟨hfree, hi, hs, hw⟩ := hc
  refine ⟨⟨?_, ?_, ?_, ?_⟩, fun i actor p h => ?_⟩
  · simp [hi]
  · simp [hs]
  · simp [hw]
  · simp [hw]
  · rw [hfree i] at h
    cases h

theorem inv_of_batch_step (c : (batchSystem ctx).Config) (l : (batchSystem ctx).Label)
    (c' : (batchSystem ctx).Config) (hI : (batchSystem ctx).Inv BatchInv BatchThread c)
    (hs : (batchSystem ctx).Step c l c') : (batchSystem ctx).Inv BatchInv BatchThread c' :=
  inv_step batch_preserved hI hs (by cases l <;> trivial)

/-! ## Concrete runs -/

def batchDriver : (batchSystem ctx).Driver where
  reply := JobWorld.reply
  check w _ _ ev := @decide _ (JobWorld.decidableAllowed w ev)
  sound h := @of_decide_eq_true _ (JobWorld.decidableAllowed _ _) h

def startBatch (req : BatchRequest) (i : ℕ) : (batchSystem ctx).Starter i where
  start w := some (.createBatch req.userId, thread (createBatch ctx req), w)
  sound h := by
    cases h
    exact ⟨rfl, .inl ⟨req, rfl, rfl⟩⟩

def startWorker {m : Fields} {job : ConversionJob} (hjob : buildJob m = .ok job) (i : ℕ) :
    (batchSystem ctx).Starter i where
  start w := if m ∈ w.published then some (.worker job, thread (processJob wiredContext "2026-07" job), w) else none
  sound h := by
    split_ifs at h with hm
    cases h
    exact ⟨rfl, .inr ⟨wiredContext, "2026-07", m, job, hm, hjob, rfl, rfl⟩⟩

def oneFileBatch : BatchRequest where
  items := [⟨"file-1", "a.pdf", "up/a.pdf", "pdf", "docx"⟩]
  userId := 7
  tier := .free
  batchId := some "batch-1"
  workflowId := some "workflow-1"
  origin := .web

def emptyBatchWorld : (batchSystem wiredService).Config := ⟨{ rows := [], published := [] }, fun _ => none⟩

theorem start_emptyBatchWorld : BatchStart emptyBatchWorld := ⟨fun _ => rfl, rfl, rfl, rfl⟩

/-- The request runs to its end, then a worker takes the message up and persists PROCESSING. -/
def stampThenWork : List ((batchSystem wiredService).Label × (batchSystem wiredService).Config) :=
  Sys.drive batchDriver emptyBatchWorld
    [.start 0 (startBatch oneFileBatch 0), .go 0, .go 0, .go 0, .go 0, .go 0, .go 0,
      .start 1 (startWorker buildJob_delivered 1), .go 1, .go 1]

/-- The worker persists PROCESSING between the publish and the stamp. -/
def workThenStamp : List ((batchSystem wiredService).Label × (batchSystem wiredService).Config) :=
  Sys.drive batchDriver emptyBatchWorld
    [.start 0 (startBatch oneFileBatch 0), .go 0, .go 0, .go 0, .go 0, .go 0,
      .start 1 (startWorker buildJob_delivered 1), .go 1, .go 1, .go 0]

/-! ## A stamped row stays in its batch -/

def JobWorld.Grouped (w : JobWorld) : Prop :=
  ∀ s ∈ w.stamps, ∃ row, w.rows.get s.jobId = some row ∧ row.batchId = some s.batchId ∧
    row.workflowId = s.workflowId ∧ row ∈ w.rows.listByBatch s.batchId s.owner

/-- No worker's UPDATE reaches a stamped row in this step. -/
def SparesStamps (c : (batchSystem ctx).Config) : (batchSystem ctx).Label → (batchSystem ctx).Config → Prop
  | .act _ (.worker _) ev, _ => ∀ job, updateOf ev = some job → ∀ s ∈ c.world.stamps, s.jobId ≠ job.jobId
  | _, _ => True

def ConversionJob.grouping (row : ConversionJob) : Option String × Option String := (row.batchId, row.workflowId)

theorem grouped_iff_columns {w : JobWorld} (hI : BatchInv w) : w.Grouped ↔
    ∀ s ∈ w.stamps, (w.rows.get s.jobId).map (·.grouping) = some (some s.batchId, s.workflowId) := by
  unfold JobWorld.Grouped
  refine forall_congr' fun s => forall_congr' fun hs => ?_
  obtain ⟨row, hrow, hu⟩ := Option.map_eq_some_iff.1 (hI.stamped s hs)
  rw [hrow]
  constructor
  · rintro ⟨row', hrow', hb, hw, -⟩
    obtain rfl : row = row' := Option.some.inj hrow'
    simp [ConversionJob.grouping, hb, hw]
  · intro h
    obtain ⟨hb, hw⟩ : row.batchId = some s.batchId ∧ row.workflowId = s.workflowId := by
      simpa [ConversionJob.grouping] using h
    exact ⟨row, rfl, hb, hw, mem_listByBatch.2 ⟨(get_some hrow).1, hb, hu⟩⟩

theorem grouped_of_requested {w w' : JobWorld} {i : ℕ} {userId : ℤ} {g g' : Option Draft}
    {u : Option ConversionJob} (hI : BatchInv w) (hg : ∀ d, g = some d → Drafted w i userId d)
    (hr : Requested w i userId g u w' g') (hk : w.Grouped) : w'.Grouped := by
  have hI' := inv_of_requested hI hg hr
  rw [grouped_iff_columns hI] at hk
  rw [grouped_iff_columns hI']
  cases hr with
  | drew id hfresh => exact hk
  | inserted row hd hu =>
    intro s hs
    obtain ⟨r, hr, -⟩ := Option.map_eq_some_iff.1 (hI.stamped s hs)
    have h := hk s hs
    rw [get_insert, hr, Option.some_or, ← hr]
    exact h
  | left job hd =>
    intro s hs
    rw [get_update_of_ne ((hg _ hd).unstamped s hs).symm]
    exact hk s hs
  | stamped job batchId published hd hst hb =>
    intro s hs
    rcases List.mem_cons.1 hs with rfl | hs
    · have hrow : (w.rows.get job.jobId).map (·.userId) = some (some userId) := (hg _ hd).row
      obtain ⟨r, hr, -⟩ := Option.map_eq_some_iff.1 hrow
      simp only [get_update, if_true, hr, Option.map_some]
      simp [ConversionJob.grouping, hb]
    · rw [get_update_of_ne ((hg _ hd).unstamped s hs).symm]
      exact hk s hs
  | published m d hd hm => exact hk
  | quiet g' hq => exact hk

theorem grouped_iff_of_worked {w w' : JobWorld} {job : ConversionJob} {u : Option ConversionJob}
    (hb : job.batchId = none) (hI : BatchInv w) (hI' : BatchInv w') (hw : Worked w job u w') (hk : w.Grouped) :
    w'.Grouped ↔ ∀ row, u = some row → ∀ s ∈ w.stamps, s.jobId ≠ row.jobId := by
  rw [grouped_iff_columns hI] at hk
  rw [grouped_iff_columns hI']
  cases hw with
  | wrote row hid hrb hs =>
    obtain ⟨hrows, -, -, hstamps, -⟩ := @write_worker_fields w job row
    rw [hrows, hstamps]
    constructor
    · rintro h row' hrow' s hst hne
      obtain rfl : row = row' := Option.some.inj hrow'
      have hcol := h s hst
      obtain ⟨r, hr, -⟩ := Option.map_eq_some_iff.1 (hI.stamped s hst)
      rw [get_update, if_pos hne, hr] at hcol
      simp [ConversionJob.grouping, hrb, hb] at hcol
    · intro h s hst
      rw [get_update_of_ne (h row rfl s hst).symm]
      exact hk s hst
  | quiet w' hsame =>
    refine ⟨fun _ row hrow => (by cases hrow), fun _ => ?_⟩
    rw [hsame.rows, hsame.stamps]
    exact hk

/-- **Batches and workers**: along every run, every row that `create_batch` stamped keeps its batch and workflow,
and its batch keeps listing it for its owner, exactly if no worker's UPDATE reaches a row already stamped. -/
theorem grouped_iff {c : (batchSystem ctx).Config} {tr : List ((batchSystem ctx).Label × (batchSystem ctx).Config)}
    (hc : BatchStart c) (hs : (batchSystem ctx).Steps c tr) :
    Along (fun _ _ c' => JobWorld.Grouped c'.world) c tr ↔ Along SparesStamps c tr := by
  have hstart : JobWorld.Grouped c.world := fun s h => by
    rw [hc.2.2.1] at h
    cases h
  refine along_iff (K := fun c => JobWorld.Grouped c.world) inv_of_batch_step (fun c l c' hI hk hst => ?_)
    (inv_of_start hc) hstart hs
  have hI' := inv_of_batch_step c l c' hI hst
  cases hst with
  | @start i actor p w hfree hspawn =>
    obtain ⟨rfl, -⟩ := hspawn
    exact ⟨fun _ => trivial, fun _ => hk⟩
  | @exit i => exact ⟨fun _ => trivial, fun _ => hk⟩
  | @act i actor op k hrun out took h hall =>
    have hT := hI.2 i actor _ hrun
    rcases actor with userId | userId | job
    · obtain ⟨g, hwp, hg⟩ := hT
      exact ⟨fun _ => trivial, fun _ => grouped_of_requested hI.1 hg (requested_of_wp hwp hall) hk⟩
    · exact hT.elim
    · obtain ⟨hb, -, g, hwp⟩ := hT
      exact grouped_iff_of_worked hb hI.1 hI'.1 (worked_of_wp hwp) hk

theorem grouped_iff_stampThenWork : Along (fun _ _ c' => JobWorld.Grouped c'.world) emptyBatchWorld stampThenWork ↔
    Along SparesStamps emptyBatchWorld stampThenWork :=
  grouped_iff start_emptyBatchWorld (steps_drive _ _ _)

/-- The worker's first UPDATE takes a stamped row out of its batch. -/
theorem stamp_erased_by_worker : ¬ ∀ (ctx : ServiceContext) (c : (batchSystem ctx).Config)
    (tr : List ((batchSystem ctx).Label × (batchSystem ctx).Config)), BatchStart c → (batchSystem ctx).Steps c tr →
    Along (fun _ _ c' => JobWorld.Grouped c'.world) c tr := by
  intro h
  have hempty : JobWorld.Grouped emptyBatchWorld.world := fun s hs => by cases hs
  have hlast : JobWorld.Grouped (lastConfig emptyBatchWorld stampThenWork).world :=
    last_of_along (K := fun c : (batchSystem wiredService).Config => JobWorld.Grouped c.world) hempty
      (h wiredService emptyBatchWorld stampThenWork start_emptyBatchWorld (steps_drive _ _ _))
  obtain ⟨row, hrow, hb, -⟩ := hlast ⟨"job-1", "batch-1", some "workflow-1", 7⟩ (List.mem_cons_self ..)
  have hnone : (JobRows.get (lastConfig emptyBatchWorld stampThenWork).world.rows "job-1").map (·.batchId) =
      some none := by rfl
  rw [hrow, Option.map_some, hb] at hnone
  cases hnone

/-! ## A stamp and the results of a worker -/

/-- What a worker persists of a job. -/
def ConversionJob.results (row : ConversionJob) : JobStatus × Option String × ℤ × ℤ :=
  (row.status, row.outputFile, row.creditsUsed, row.progress)

/-- The requests leave the status, output, credits and progress of every row a worker has written. -/
def KeepsResults (c : (batchSystem ctx).Config) :
    (batchSystem ctx).Label → (batchSystem ctx).Config → Prop
  | .act _ (.createBatch _) _, c' => ∀ id ∈ c.world.workerWrote,
      (JobRows.get c'.world.rows id).map (·.results) = (JobRows.get c.world.rows id).map (·.results)
  | _, _ => True

/-- No UPDATE of a request reaches a row a worker has written. -/
def SparesResults (c : (batchSystem ctx).Config) :
    (batchSystem ctx).Label → (batchSystem ctx).Config → Prop
  | .act _ (.createBatch _) ev, _ => ∀ job, updateOf ev = some job → job.jobId ∉ c.world.workerWrote
  | _, _ => True

theorem results_iff_of_requested {w w' : JobWorld} {i : ℕ} {userId : ℤ} {g g' : Option Draft}
    {u : Option ConversionJob} (hI : BatchInv w) (hg : ∀ d, g = some d → Drafted w i userId d)
    (hr : Requested w i userId g u w' g') :
    (∀ id ∈ w.workerWrote, (w'.rows.get id).map (·.results) = (w.rows.get id).map (·.results)) ↔
      ∀ job, u = some job → job.jobId ∉ w.workerWrote := by
  cases hr with
  | drew id hfresh => exact ⟨fun _ job h => (by cases h), fun _ _ _ => rfl⟩
  | inserted row hd hu =>
    refine ⟨fun _ job h => (by cases h), fun _ id hid => ?_⟩
    obtain ⟨r, hr⟩ := get_isSome_of_wrote hI hid
    rw [get_insert, hr, Option.some_or]
  | left job hd =>
    have hnot : job.jobId ∉ w.workerWrote := fun h => wrote_ne_of_unpublished hI (hg _ hd) rfl h rfl
    constructor
    · rintro - job' hjob'
      obtain rfl : job = job' := Option.some.inj hjob'
      exact hnot
    · rintro - id hid
      have hne : job.jobId ≠ id := fun h => hnot (h ▸ hid)
      rw [get_update_of_ne hne]
  | stamped job batchId published hd hs hb =>
    constructor
    · rintro h job' hjob' hid
      obtain rfl : job = job' := Option.some.inj hjob'
      -- the row has a worker's status, the stamp writes PENDING over it
      obtain ⟨r, hr, hst⟩ := hI.wrote_row job.jobId hid
      have hrst := hst fun s hs => (hg _ hd).unstamped s hs
      have hres := h job.jobId hid
      simp only [get_update, if_true, hr, Option.map_some, Option.some.injEq] at hres
      have hstatus := congrArg Prod.fst hres
      exact hrst (hstatus.symm.trans hs)
    · intro h id hid
      have hne : job.jobId ≠ id := fun heq => h job rfl (heq ▸ hid)
      rw [get_update_of_ne hne]
  | published m d hd hm => exact ⟨fun _ job h => (by cases h), fun _ _ _ => rfl⟩
  | quiet g' hq => exact ⟨fun _ job h => (by cases h), fun _ _ _ => rfl⟩

/-- **The late stamp**: along every run, the batch requests leave what workers have persisted exactly if none of
their UPDATEs reaches a row that a worker has written. -/
theorem stamp_keeps_results_iff {c : (batchSystem ctx).Config}
    {tr : List ((batchSystem ctx).Label × (batchSystem ctx).Config)} (hc : BatchStart c)
    (hs : (batchSystem ctx).Steps c tr) : Along KeepsResults c tr ↔ Along SparesResults c tr := by
  have step : ∀ c l c', (batchSystem ctx).Inv BatchInv BatchThread c → (batchSystem ctx).Step c l c' →
      (KeepsResults c l c' ↔ SparesResults c l c') := by
    intro c l c' hI hst
    cases hst with
    | @start i actor p w hfree hspawn => exact Iff.rfl
    | @exit i => exact Iff.rfl
    | @act i actor op k hrun out took h hall =>
      have hT := hI.2 i actor _ hrun
      rcases actor with userId | userId | job
      · obtain ⟨g, hwp, hg⟩ := hT
        exact results_iff_of_requested hI.1 hg (requested_of_wp hwp hall)
      · exact hT.elim
      · exact Iff.rfl
  exact along_congr inv_of_batch_step step (inv_of_start hc) hs

theorem stamp_keeps_results_iff_workThenStamp :
    Along KeepsResults emptyBatchWorld workThenStamp ↔ Along SparesResults emptyBatchWorld workThenStamp :=
  stamp_keeps_results_iff start_emptyBatchWorld (steps_drive _ _ _)

/-- A stamp after the worker's first UPDATE takes the job back to PENDING. -/
theorem results_lost_to_stamp : ¬ ∀ (ctx : ServiceContext) (c : (batchSystem ctx).Config)
    (tr : List ((batchSystem ctx).Label × (batchSystem ctx).Config)), BatchStart c → (batchSystem ctx).Steps c tr →
    Along KeepsResults c tr := by
  intro h
  have hrun := h wiredService emptyBatchWorld workThenStamp start_emptyBatchWorld (steps_drive _ _ _)
  have hstamp := hrun.2.2.2.2.2.2.2.2.2.1 "job-1" (List.mem_cons_self ..)
  have hstatus := congrArg (Option.map Prod.fst) hstamp
  exact absurd hstatus (by decide)

end Runs

end Transform.Conversions
