import Transform.Cleanup.Released
import Transform.Erasure.Account

/-!
# Erasure.Objects — the stored objects of a deleted account

The account's rows go at once, its objects are left to the cleanup worker, which finds objects through rows and under
`temp/`.  `leaves_no_objects_iff` says which objects of the account a cycle reclaims that runs after all retention windows
with a database and a storage that answer.
-/

namespace Transform.Erasure

open Lib Conversions Cleanup

/-! ## Objects and the rows that reference them -/

section Objects

variable {D : Type}

/-- The object keys that a row holds in `object_key`, `output_file` or `file_key`. -/
def Row.objectKeys : Row → List String
  | .job row => row.objectKey :: row.outputFile.toList
  | .file row => [row.fileKey]
  | _ => []

def OwnObject (db : Database D) (userId : ℤ) (name : String) : Prop :=
  ∃ e ∈ db.rows, e.row.names userId = true ∧ name ∈ e.row.objectKeys

/-- A row of another user references it. -/
def OthersObject (db : Database D) (userId : ℤ) (name : String) : Prop :=
  ∃ e ∈ db.rows, (∃ holder, e.row.holder = some holder ∧ holder.isUser userId = false) ∧ name ∈ e.row.objectKeys

def hasPrefix (keyPrefix name : String) : Bool := keyPrefix.toList.isPrefixOf name.toList

/-- A cycle reclaims the object without the user's rows: it is a dated one under `temp/`, or it is named by a job of a guest
or by a finished job of another user. -/
def Reclaimable (db : Database D) (userId : ℤ) (bucket : List StoredObject) (name : String) : Prop :=
  (∃ obj ∈ bucket, hasPrefix "temp/" obj.objectName = true ∧ obj.lastModified.isSome ∧ obj.objectName = name) ∨
    ∃ e ∈ db.rows, ∃ job, e.row = .job job ∧ job.userId ≠ some userId ∧ job.createdAt.isSome ∧
      (job.userId = none ∨ job.status = .completed ∨ job.status = .failed) ∧ name ∈ jobKeys job

/-- No object of the user is left in the bucket that no other user's row references. -/
def LeavesNoObjects (db : Database D) (userId : ℤ) (bucket : List StoredObject) (g : Ledger) : Prop :=
  ∀ obj ∈ bucket, obj.objectName ∉ g.removed → OwnObject db userId obj.objectName → OthersObject db userId obj.objectName

end Objects

/-! ## The tables that the cleanup reads -/

section Tables

variable {D : Type} {db : Database D} {userId : ℤ} {e : Entry D}

def asJob (e : Entry D) : Option ConversionJob :=
  match e.row with
  | .job row => some row
  | _ => none

def asFile (e : Entry D) : Option Cleanup.UserFile :=
  match e.row with
  | .file row => some ⟨row.id, row.fileKey, row.createdAt, row.expiresAt⟩
  | _ => none

theorem asJob_iff {job : ConversionJob} : asJob e = some job ↔ e.row = .job job := by
  unfold asJob
  split <;> simp_all

theorem asFile_iff {file : Cleanup.UserFile} : asFile e = some file ↔
    ∃ row, e.row = .file row ∧ (⟨row.id, row.fileKey, row.createdAt, row.expiresAt⟩ : Cleanup.UserFile) = file := by
  unfold asFile
  split <;> simp_all

theorem nodup_of_keys {α : Type} {f : Entry D → Option α} {id : α → String} {table : Table} {rows : List (Entry D)}
    (hrows : (rows.map (schema D).key).Nodup) (hf : ∀ e a, f e = some a → e.row.key = ⟨table, .text (id a)⟩) :
    ((rows.filterMap f).map id).Nodup := by
  rw [List.Nodup, List.pairwise_map, List.pairwise_filterMap]
  rw [List.Nodup, List.pairwise_map] at hrows
  refine hrows.imp fun {e e'} hne a ha a' ha' hid => hne ?_
  show e.row.key = e'.row.key
  rw [hf e a ha, hf e' a' ha', hid]

theorem job_ids (db : Database D) : ((db.rows.filterMap asJob).map (·.jobId)).Nodup :=
  nodup_of_keys db.keys fun e job h => by
    rw [asJob_iff.1 h]
    rfl

theorem file_ids (db : Database D) : ((db.rows.filterMap asFile).map (·.id)).Nodup :=
  nodup_of_keys db.keys fun e file h => by
    obtain ⟨row, hrow, rfl⟩ := asFile_iff.1 h
    rw [hrow]
    rfl

/-- The jobs and the files, as the cleanup reads them. -/
def tablesOf (db : Database D) : Tables where
  jobs := db.rows.filterMap asJob
  files := db.rows.filterMap asFile
  job_ids := job_ids db
  file_ids := file_ids db

theorem owns_job (job : ConversionJob) : (Row.job job).owns userId = true ↔ job.userId = some userId := by
  rcases hn : job.userId with _ | n <;> simp [Row.owns, Row.names, Row.holder, Row.bySubject, Holder.isUser, hn]

theorem belongs_job {job : ConversionJob} (h : e.row = .job job) : Belongs db userId e ↔ job.userId = some userId := by
  constructor
  · intro hb
    cases hb with
    | chosen howns =>
      rw [h] at howns
      exact (owns_job job).1 howns
    | cascade hl _ _ _ _ =>
      have hl' : _ ∈ e.row.links := hl
      rw [h] at hl'
      cases hl'
  · intro huser
    refine .chosen ?_
    show e.row.owns userId = true
    rw [h]
    exact (owns_job job).2 huser

theorem tablesOf_jobs (db : Database D) : (tablesOf db).jobs = db.rows.filterMap asJob := rfl

theorem tablesOf_files (db : Database D) : (tablesOf db).files = db.rows.filterMap asFile := rfl

theorem user_of_file {row : Files.UserFile} (h : e.row = .file row) (hleft : ¬ Belongs db userId e) :
    row.userId ≠ userId := by
  intro huser
  refine hleft (.chosen ?_)
  show e.row.owns userId = true
  rw [h]
  simp [Row.owns, Row.names, Row.holder, Row.bySubject, Holder.isUser, huser]

/-- The jobs that the cleanup finds after the deletion. -/
theorem mem_jobs_erase {job : ConversionJob} : job ∈ (tablesOf (erase userId db)).jobs ↔
    ∃ e ∈ db.rows, e.row = .job job ∧ job.userId ≠ some userId := by
  rw [tablesOf_jobs, List.mem_filterMap]
  constructor
  · rintro ⟨e', he', hjob⟩
    obtain ⟨e, he, hleft, rfl⟩ := mem_erase.1 he'
    have hrow : ((e.row).clear ((schema D).cleared db.rows (db.removed (chosen userId)) e)) = .job job := asJob_iff.1 hjob
    have hsame : e.row = .job job := by
      obtain ⟨row, rest⟩ := e
      cases row with
      | job row => exact hrow
      | _ => cases hrow
    exact ⟨e, he, hsame, fun huser => hleft ((belongs_job hsame).2 huser)⟩
  · rintro ⟨e, he, hrow, huser⟩
    refine ⟨e, (mem_erase_self he).2 ⟨fun hb => huser ((belongs_job hrow).1 hb), fun l hl => ?_⟩, asJob_iff.2 hrow⟩
    rw [hrow] at hl
    cases hl

theorem of_files_erase {file : Cleanup.UserFile} (h : file ∈ (tablesOf (erase userId db)).files) :
    OthersObject db userId file.fileKey := by
  rw [tablesOf_files, List.mem_filterMap] at h
  obtain ⟨e', he', hfile⟩ := h
  obtain ⟨e, he, hleft, rfl⟩ := mem_erase.1 he'
  obtain ⟨row', hrow, rfl⟩ := asFile_iff.1 hfile
  have hclear : (e.row).clear ((schema D).cleared db.rows (db.removed (chosen userId)) e) = .file row' := hrow
  obtain ⟨row, hsame, hkey⟩ : ∃ row, e.row = .file row ∧ row.fileKey = row'.fileKey := by
    obtain ⟨row, rest⟩ := e
    cases row with
    | file row =>
      cases hclear
      exact ⟨row, rfl, rfl⟩
    | _ => cases hclear
  refine ⟨e, he, ⟨.id row.userId, by rw [hsame]; rfl, ?_⟩, ?_⟩
  · exact decide_eq_false (user_of_file hsame hleft)
  · rw [hsame]
    exact List.mem_singleton.2 hkey.symm

end Tables

/-! ## A cycle after all retention windows -/

section Cycle

variable (cfg : CleanupConfig) (db : Tables) (bucket : List StoredObject)

/-- All windows have passed. -/
structure Late (now : Instant) : Prop where
  jobs : ∀ job ∈ db.jobs, ∀ t ∈ job.createdAt, t < now - cfg.guestJobRetention ∧ t < now - cfg.archiveAfter
  objects : ∀ obj ∈ bucket, ∀ t ∈ obj.lastModified, t < now - cfg.tempRetention

/-- The clock is late, and every call to storage succeeds; a listing has the objects that are still there. -/
def Succeeds (g : Ledger) : Event CleanupSig → Prop
  | ⟨.utcNow, .ok now, _, _⟩ => Late cfg db bucket now
  | ⟨.listObjects keyPrefix, .ok objects, _, _⟩ =>
    objects = bucket.filter fun obj => hasPrefix keyPrefix obj.objectName && decide (obj.objectName ∉ g.removed)
  | ⟨.listObjects _, .error _, _, _⟩ => False
  | ⟨.removeObject _, .error _, _, _⟩ => False
  | _ => True

/-- Watches a cycle whose database and storage answer. -/
def sweepMonitor : Monitor CleanupSig Ledger where
  pre _ _ := True
  rely g ev := Reads g ev ∧ Succeeds cfg db bucket g ev
  step := Ledger.step cfg

/-- Every phase has run, with a late cutoff; what lies under the prefix was listed, or was removed before. -/
structure Completed (g : Ledger) : Prop where
  guest : ∃ now, Late cfg db bucket now ∧ g.inputs.guest = some (now - cfg.guestJobRetention)
  temp : ∃ now objects, Late cfg db bucket now ∧ g.inputs.temp = some (now - cfg.tempRetention, objects) ∧
    (∀ obj ∈ objects, obj ∈ bucket ∧ hasPrefix "temp/" obj.objectName = true) ∧
    ∀ obj ∈ bucket, hasPrefix "temp/" obj.objectName = true → obj ∈ objects ∨ obj.objectName ∈ g.removed
  old : ∃ now, Late cfg db bucket now ∧ g.inputs.old = some (now - cfg.archiveAfter)

/-- Removals and commits: no read. -/
def CleanupOp.Quiet : CleanupOp → Prop
  | .removeObject _ | .commitJobs _ | .commitFiles _ => True
  | _ => False

/-- The reads are the same, and nothing is back that was removed. -/
structure Extends (g g' : Ledger) : Prop where
  guest : g'.inputs.guest = g.inputs.guest
  temp : g'.inputs.temp = g.inputs.temp
  old : g'.inputs.old = g.inputs.old
  removed : ∀ key ∈ g.removed, key ∈ g'.removed

end Cycle

section Phases

variable {cfg : CleanupConfig} {db : Tables} {bucket : List StoredObject} {g g' g'' : Ledger}

theorem extends_refl (g : Ledger) : Extends g g := ⟨rfl, rfl, rfl, fun _ h => h⟩

theorem extends_trans (h : Extends g g') (h' : Extends g' g'') : Extends g g'' :=
  ⟨h'.guest.trans h.guest, h'.temp.trans h.temp, h'.old.trans h.old, fun key hk => h'.removed key (h.removed key hk)⟩

/-- A removal or a commit leaves what was read. -/
theorem extends_step {ev : Event CleanupSig} (hop : CleanupOp.Quiet ev.op) : Extends g (g.step cfg ev) := by
  obtain ⟨op, out, took, h⟩ := ev
  cases op with
  | removeObject key => exact ⟨rfl, rfl, rfl, fun k hk => List.mem_append_left _ hk⟩
  | commitJobs rows =>
    rcases out with e | a <;> rcases took with _ | _ <;> exact ⟨rfl, rfl, rfl, fun _ hk => hk⟩
  | commitFiles rows =>
    rcases out with e | a <;> rcases took with _ | _ <;> exact ⟨rfl, rfl, rfl, fun _ hk => hk⟩
  | _ => cases hop

/-- What follows the reads of a phase. -/
theorem extends_quiet {α : Type} {p : CleanupM α} (hp : p.Only CleanupOp.Quiet) :
    wpe (sweepMonitor cfg db bucket) p (fun _ g' => Extends g g') (fun _ _ => True) g :=
  wpe_of_only_inv (R := fun g' => Extends g g') hp (fun _ _ _ _ => trivial)
    (fun _ _ h hop _ => extends_trans h (extends_step hop)) (fun _ _ h => h) (fun _ _ _ => trivial) (extends_refl g)

theorem only_deleteObjects : ∀ keys : List (Option String), (deleteObjects keys).Only CleanupOp.Quiet
  | [] => only_pure
  | key :: keys => by
    refine only_bind ?_ fun _ => only_deleteObjects keys
    unfold deleteObject
    rcases truthy key with _ | name
    · exact only_pure
    · exact only_tryCatch (only_ask trivial) fun _ => only_pure

theorem only_deleteJobObjects : ∀ rows : List ConversionJob, (deleteJobObjects rows).Only CleanupOp.Quiet
  | [] => only_pure
  | _ :: rows => only_bind (only_deleteObjects _) fun _ => only_deleteJobObjects rows

theorem only_deleteFileObjects : ∀ rows : List Cleanup.UserFile, (deleteFileObjects rows).Only CleanupOp.Quiet
  | [] => only_pure
  | _ :: rows => only_bind (only_deleteObjects _) fun _ => only_deleteFileObjects rows

theorem only_commitJobs (rows : List ConversionJob) : (commitJobs rows).Only CleanupOp.Quiet := by
  unfold commitJobs
  split_ifs
  · exact only_pure
  · exact only_ask trivial

theorem only_commitFiles (rows : List Cleanup.UserFile) : (commitFiles rows).Only CleanupOp.Quiet := by
  unfold commitFiles
  split_ifs
  · exact only_pure
  · exact only_ask trivial

theorem only_removeStaleObjects (cutoff : Instant) : ∀ objects : List StoredObject,
    (removeStaleObjects cutoff objects).Only CleanupOp.Quiet
  | [] => only_pure
  | obj :: objects => by
    refine only_bind ?_ fun _ => only_bind (only_removeStaleObjects cutoff objects) fun _ => only_pure
    unfold removeStale
    split_ifs
    · exact only_tryCatch (only_bind (only_ask trivial) fun _ => only_pure) fun _ => only_pure
    · exact only_pure

theorem guest_phase : wpe (sweepMonitor cfg db bucket) (cleanupGuestJobs cfg)
    (fun _ g' => (∃ now, Late cfg db bucket now ∧ g'.inputs.guest = some (now - cfg.guestJobRetention)) ∧
      ∀ key ∈ g.removed, key ∈ g'.removed) (fun _ _ => True) g := by
  unfold cleanupGuestJobs
  rw [wpe_bind]
  refine wpe_ask.2 ⟨trivial, fun now hnow => ?_, fun _ _ _ _ => trivial⟩
  rw [wpe_bind]
  refine wpe_ask.2 ⟨trivial, fun rows _ => ?_, fun _ _ _ _ => trivial⟩
  have hquiet := only_bind (only_deleteJobObjects rows) fun _ : Unit => only_bind (only_commitJobs rows)
    fun _ : Unit => (only_pure : (pure rows.length : CleanupM ℕ).Only CleanupOp.Quiet)
  exact wpe_mono (extends_quiet hquiet) (fun _ g' h => ⟨⟨now, hnow.2, h.guest⟩, h.removed⟩) fun _ _ h => h

theorem files_phase : wpe (sweepMonitor cfg db bucket) (cleanupExpiredFiles cfg) (fun _ g' => Extends g g')
    (fun _ _ => True) g := by
  unfold cleanupExpiredFiles
  rw [wpe_bind]
  refine wpe_ask.2 ⟨trivial, fun now _ => ?_, fun _ _ _ _ => trivial⟩
  rw [wpe_bind]
  refine wpe_ask.2 ⟨trivial, fun rows _ => ?_, fun _ _ _ _ => trivial⟩
  have hquiet := only_bind (only_deleteFileObjects rows) fun _ : Unit => only_bind (only_commitFiles rows)
    fun _ : Unit => (only_pure : (pure rows.length : CleanupM ℕ).Only CleanupOp.Quiet)
  exact wpe_mono (extends_quiet hquiet) (fun _ g' h => ⟨h.guest, h.temp, h.old, h.removed⟩) fun _ _ h => h

theorem temp_phase : wpe (sweepMonitor cfg db bucket) (cleanupTempFiles cfg)
    (fun _ g' => (∃ now, Late cfg db bucket now ∧ g'.inputs.temp = some (now - cfg.tempRetention, bucket.filter fun obj =>
        hasPrefix "temp/" obj.objectName && decide (obj.objectName ∉ g.removed))) ∧
      g'.inputs.guest = g.inputs.guest ∧ ∀ key ∈ g.removed, key ∈ g'.removed) (fun _ _ => True) g := by
  unfold cleanupTempFiles
  rw [wpe_bind]
  refine wpe_ask.2 ⟨trivial, fun now hnow => ?_, fun _ _ _ _ => trivial⟩
  rw [wpe_bind, wpe_tryCatch]
  refine wpe_ask.2 ⟨trivial, fun objects hlisted => ?_, fun e took h hfails => hfails.2.elim⟩
  have hobjects := hlisted.2
  dsimp only [Succeeds] at hobjects
  subst hobjects
  refine wpe_mono (extends_quiet (only_removeStaleObjects _ _)) (fun _ g' h => ?_) fun _ _ h => h
  exact ⟨⟨now, hnow.2, h.temp⟩, h.guest, h.removed⟩

theorem old_phase : wpe (sweepMonitor cfg db bucket) (archiveOldJobs cfg)
    (fun _ g' => (∃ now, Late cfg db bucket now ∧ g'.inputs.old = some (now - cfg.archiveAfter)) ∧
      g'.inputs.guest = g.inputs.guest ∧ g'.inputs.temp = g.inputs.temp ∧ ∀ key ∈ g.removed, key ∈ g'.removed)
    (fun _ _ => True) g := by
  unfold archiveOldJobs
  rw [wpe_bind]
  refine wpe_ask.2 ⟨trivial, fun now hnow => ?_, fun _ _ _ _ => trivial⟩
  rw [wpe_bind]
  refine wpe_ask.2 ⟨trivial, fun rows _ => ?_, fun _ _ _ _ => trivial⟩
  have hquiet := only_bind (only_deleteJobObjects rows) fun _ : Unit => only_bind (only_commitJobs rows)
    fun _ : Unit => (only_pure : (pure rows.length : CleanupM ℕ).Only CleanupOp.Quiet)
  refine wpe_mono (extends_quiet hquiet) (fun _ g' h => ?_) fun _ _ h => h
  exact ⟨⟨now, hnow.2, h.old⟩, h.guest, h.temp, h.removed⟩

theorem telemetry_phase : wpe (sweepMonitor cfg db bucket) (cleanupTelemetry cfg) (fun _ g' => Extends g g')
    (fun _ _ => True) g := by
  unfold cleanupTelemetry
  rw [wpe_bind]
  refine wpe_ask.2 ⟨trivial, fun now _ => ?_, fun _ _ _ _ => trivial⟩
  exact wpe_ask.2 ⟨trivial, fun _ _ => ⟨rfl, rfl, rfl, fun _ h => h⟩, fun _ _ _ _ => trivial⟩

/-- **A cycle that ends** has run every phase. -/
theorem runCleanupCycle_completed : wp (sweepMonitor cfg db bucket) (runCleanupCycle cfg).run
    (fun r g => r = .ok () → Completed cfg db bucket g) g := by
  have hspec : wpe (sweepMonitor cfg db bucket) (runCleanupCycle cfg) (fun _ g => Completed cfg db bucket g)
      (fun _ _ => True) g := by
    unfold runCleanupCycle
    rw [wpe_bind]
    refine wpe_mono guest_phase (fun _ g₁ h₁ => ?_) fun _ _ h => h
    obtain ⟨⟨now₁, hlate₁, hguest⟩, -⟩ := h₁
    rw [wpe_bind]
    refine wpe_mono files_phase (fun _ g₂ h₂ => ?_) fun _ _ h => h
    rw [wpe_bind]
    refine wpe_mono temp_phase (fun _ g₃ h₃ => ?_) fun _ _ h => h
    obtain ⟨⟨now₃, hlate₃, htemp⟩, hguest₃, hremoved₃⟩ := h₃
    rw [wpe_bind]
    refine wpe_mono old_phase (fun _ g₄ h₄ => ?_) fun _ _ h => h
    obtain ⟨⟨now₄, hlate₄, hold⟩, hguest₄, htemp₄, hremoved₄⟩ := h₄
    rw [wpe_bind]
    refine wpe_mono telemetry_phase (fun _ g₅ h₅ => ?_) fun _ _ h => h
    have htemp₅ := h₅.temp.trans (htemp₄.trans htemp)
    refine ⟨⟨now₁, hlate₁, ?_⟩, ⟨now₃, _, hlate₃, htemp₅, fun obj hobj => ?_, fun obj hobj hstarts => ?_⟩,
      ⟨now₄, hlate₄, ?_⟩⟩
    · rw [h₅.guest, hguest₄, hguest₃, h₂.guest, hguest]
    · obtain ⟨hmem, hlisted⟩ := List.mem_filter.1 hobj
      exact ⟨hmem, (Bool.and_eq_true_iff.1 hlisted).1⟩
    · by_cases hremoved : obj.objectName ∈ g₂.removed
      · exact .inr (h₅.removed _ (hremoved₄ _ (hremoved₃ _ hremoved)))
      · refine .inl (List.mem_filter.2 ⟨hobj, ?_⟩)
        rw [hstarts, decide_eq_true hremoved]
        rfl
    · rw [h₅.old, hold]
  exact wp_mono (fun r g hr => by
    rcases r with e | a
    · intro h
      cases h
    · exact fun _ => hr) hspec

theorem relied_cycle {tr : List (Event CleanupSig)} : ∀ {g : Ledger}, (sweepMonitor cfg db bucket).Relied g tr →
    (cycleMonitor cfg).Relied g tr := by
  induction tr with
  | nil => exact fun _ => trivial
  | cons ev tr ih => exact fun h => ⟨h.1.1, ih h.2⟩

end Phases

/-! ## What a cycle leaves of a deleted account -/

section Leaves

variable {D : Type} {userId : ℤ} {db : Database D} {cfg : CleanupConfig} {bucket : List StoredObject} {g : Ledger}

theorem guestDue_iff {cutoff : Instant} {job : ConversionJob} :
    guestDue cutoff job = true ↔ job.userId = none ∧ ∃ t ∈ job.createdAt, t < cutoff := by
  unfold guestDue
  rw [decide_eq_true_iff]
  refine and_congr_right fun _ => ?_
  cases job.createdAt <;> simp

theorem oldDue_iff {cutoff : Instant} {job : ConversionJob} :
    oldDue cutoff job = true ↔ (∃ t ∈ job.createdAt, t < cutoff) ∧ (job.status = .completed ∨ job.status = .failed) := by
  unfold oldDue
  rw [decide_eq_true_iff]
  refine and_congr_left fun _ => ?_
  cases job.createdAt <;> simp

theorem eq_of_fileKeys {file : Cleanup.UserFile} {name : String} (h : name ∈ fileKeys file) : name = file.fileKey := by
  obtain ⟨key, hmem, hkey⟩ := List.mem_filterMap.1 h
  obtain rfl := List.mem_singleton.1 hmem
  exact (Option.some.inj (Option.filter_eq_some_iff.1 hkey).1).symm

theorem isSome_of_due {cutoff : Instant} {t : Option Instant} (h : ∃ s ∈ t, s < cutoff) : t.isSome := by
  obtain ⟨s, hs, -⟩ := h
  rw [hs]
  rfl

theorem reclaimable_of_removed (hs : Swept (tablesOf (erase userId db)) g)
    (hc : Completed cfg (tablesOf (erase userId db)) bucket g) {name : String} (hothers : ¬ OthersObject db userId name)
    (hremoved : name ∈ g.removed) : Reclaimable db userId bucket name := by
  obtain ⟨nowT, objects, hlateT, htemp, hlisted, -⟩ := hc.temp
  rcases (hs.removed name).1 hremoved with ⟨cutoff, -, job, hjob, hdue, hkey⟩ | ⟨t, -, file, hfile, -, hkey⟩ |
    ⟨t, ht, obj, hobj, hstale, rfl⟩ | ⟨cutoff, -, job, hjob, hdue, hkey⟩
  · obtain ⟨e, he, hrow, huser⟩ := mem_jobs_erase.1 hjob
    obtain ⟨hnone, hdated⟩ := guestDue_iff.1 hdue
    exact .inr ⟨e, he, job, hrow, huser, isSome_of_due hdated, .inl hnone, hkey⟩
  · -- a file that is due is of another user
    have hname := eq_of_fileKeys hkey
    rw [hname] at hothers
    exact absurd (of_files_erase hfile) hothers
  · rw [htemp] at ht
    obtain rfl := Option.some.inj ht
    obtain ⟨hmem, hstarts⟩ := hlisted obj hobj
    refine .inl ⟨obj, hmem, hstarts, ?_, rfl⟩
    unfold StoredObject.stale at hstale
    obtain ⟨s, hs, -⟩ := (Option.any_eq_true _ _).1 hstale
    rw [hs]
    rfl
  · obtain ⟨e, he, hrow, huser⟩ := mem_jobs_erase.1 hjob
    obtain ⟨hdated, hfinished⟩ := oldDue_iff.1 hdue
    exact .inr ⟨e, he, job, hrow, huser, isSome_of_due hdated, .inr hfinished, hkey⟩

/-- Past all windows whatever is dated is due. -/
theorem removed_of_reclaimable (hs : Swept (tablesOf (erase userId db)) g)
    (hc : Completed cfg (tablesOf (erase userId db)) bucket g) {name : String}
    (hreclaim : Reclaimable db userId bucket name) : name ∈ g.removed := by
  obtain ⟨nowG, hlateG, hguest⟩ := hc.guest
  obtain ⟨nowT, objects, hlateT, htemp, -, hlistedAll⟩ := hc.temp
  obtain ⟨nowO, hlateO, hold⟩ := hc.old
  rcases hreclaim with ⟨obj, hobj, hstarts, hdated, rfl⟩ | ⟨e, he, job, hrow, huser, hdated, hkind, hkey⟩
  · rcases hlistedAll obj hobj hstarts with hmem | hremoved
    · refine (hs.removed _).2 (.inr (.inr (.inl ⟨_, htemp, obj, hmem, ?_, rfl⟩)))
      obtain ⟨s, hs⟩ := Option.isSome_iff_exists.1 hdated
      unfold StoredObject.stale
      rw [hs]
      exact decide_eq_true (hlateT.objects obj hobj s hs)
    · exact hremoved
  · have hjob : job ∈ (tablesOf (erase userId db)).jobs := mem_jobs_erase.2 ⟨e, he, hrow, huser⟩
    obtain ⟨s, hs'⟩ := Option.isSome_iff_exists.1 hdated
    rcases hkind with hnone | hfinished
    · refine (hs.removed _).2 (.inl ⟨_, hguest, job, hjob, guestDue_iff.2 ⟨hnone, s, hs', ?_⟩, hkey⟩)
      exact (hlateG.jobs job hjob s hs').1
    · refine (hs.removed _).2 (.inr (.inr (.inr ⟨_, hold, job, hjob, oldDue_iff.2 ⟨⟨s, hs', ?_⟩, hfinished⟩, hkey⟩)))
      exact (hlateO.jobs job hjob s hs').2

/-- **What is removed** after all windows have passed, of what no other user's row references. -/
theorem removed_iff_reclaimable (hs : Swept (tablesOf (erase userId db)) g)
    (hc : Completed cfg (tablesOf (erase userId db)) bucket g) {name : String} (hothers : ¬ OthersObject db userId name) :
    name ∈ g.removed ↔ Reclaimable db userId bucket name :=
  ⟨reclaimable_of_removed hs hc hothers, removed_of_reclaimable hs hc⟩

/-- **Deleted accounts and their objects**: after an account is deleted and a cycle has ended that ran past all retention
windows with a database and a storage that answer, no object of the account is left that no other user's row references,
exactly if each such object is reclaimable without the account's rows. -/
theorem leaves_no_objects_iff {verifyPassword : String → String → Bool} {payload : DeleteAccountRequest}
    {currentUser : CurrentUser} {w w' : Deployment D} {tr : List (Event CleanupSig)}
    (h : deleteAccount verifyPassword payload currentUser w = .ok w') (hr : Run (runCleanupCycle cfg).run tr (.ok ()))
    (hM : (sweepMonitor cfg (tablesOf w'.db) bucket).Relied (.start (tablesOf w'.db)) tr) :
    LeavesNoObjects w.db currentUser.id bucket (ledger cfg (tablesOf w'.db) tr) ↔
      ∀ obj ∈ bucket, OwnObject w.db currentUser.id obj.objectName → ¬ OthersObject w.db currentUser.id obj.objectName →
        Reclaimable w.db currentUser.id bucket obj.objectName := by
  obtain rfl := deleteAccount_ok h
  have hswept : Swept (tablesOf (erase currentUser.id w.db)) (ledger cfg (tablesOf (erase currentUser.id w.db)) tr) :=
    wp_run runCleanupCycle_spec hr (relied_cycle hM)
  have hcompleted : Completed cfg (tablesOf (erase currentUser.id w.db)) bucket
      (ledger cfg (tablesOf (erase currentUser.id w.db)) tr) := wp_run runCleanupCycle_completed hr hM rfl
  constructor
  · intro hleaves obj hobj hown hothers
    by_contra hnot
    have hkept : obj.objectName ∉ (ledger cfg (tablesOf (erase currentUser.id w.db)) tr).removed := fun hremoved =>
      hnot ((removed_iff_reclaimable hswept hcompleted hothers).1 hremoved)
    exact hothers (hleaves obj hobj hkept hown)
  · intro hreclaimable obj hobj hkept hown
    by_contra hothers
    exact hkept ((removed_iff_reclaimable hswept hcompleted hothers).2 (hreclaimable obj hobj hown hothers))

end Leaves

/-! ## A concrete deletion -/

section Concrete

def oneConversion : List (Entry Unit) :=
  [⟨.user 7 none, ()⟩,
    ⟨.job { jobId := "job-1", conversion := ⟨"pdf", "docx"⟩, inputFile := "a.pdf", objectKey := "upload/a.pdf",
            outputFile := some "outputs/a.docx", status := .completed, userId := some 7, createdAt := some 0 }, ()⟩]

theorem oneConversion_keys : (oneConversion.map (schema Unit).key).Nodup := by decide

theorem oneConversion_sound : ∀ r ∈ oneConversion, ∀ l ∈ (schema Unit).links r,
    ∃ q ∈ oneConversion, (schema Unit).key q = l.target := by
  decide

def leavingUser : Deployment Unit := ⟨⟨oneConversion, oneConversion_keys, oneConversion_sound⟩, []⟩

/-- The deployment after the account is deleted. -/
def userGone : Deployment Unit := { leavingUser with db := erase 7 leavingUser.db }

def twoObjects : List StoredObject := [⟨"upload/a.pdf", some 0⟩, ⟨"outputs/a.docx", some 0⟩]

/-- A database and a storage that answer, forty days after the epoch. -/
def answeringCycle : Env CleanupSig Ledger where
  reply g
    | .utcNow => .ok (hours (40 * 24))
    | .selectGuestJobs cutoff => .ok (g.tables.jobs.filter (guestDue cutoff))
    | .selectExpiredFiles now cutoff => .ok (g.tables.files.filter (expiredDue now cutoff))
    | .selectOldJobs cutoff => .ok (g.tables.jobs.filter (oldDue cutoff))
    | .deleteTelemetry _ => .ok (0 : ℕ)
    | .listObjects keyPrefix => .ok (twoObjects.filter fun obj =>
        hasPrefix keyPrefix obj.objectName && decide (obj.objectName ∉ g.removed))
    | .commitJobs _ => .ok ()
    | .commitFiles _ => .ok ()
    | .removeObject _ => .ok ()
  effect := Ledger.step defaultConfig

def cycleAfterDeletion : List (Event CleanupSig) :=
  ((runCleanupCycle defaultConfig).run.play answeringCycle (.start (tablesOf userGone.db))).1

theorem late_fortyDays : Late defaultConfig (tablesOf userGone.db) twoObjects (hours (40 * 24)) := by
  constructor
  · intro job hjob
    obtain ⟨e, he, hrow, huser⟩ := mem_jobs_erase.1 hjob
    simp only [leavingUser, oneConversion, List.mem_cons, List.not_mem_nil, or_false] at he
    rcases he with rfl | rfl
    · cases hrow
    · cases hrow
      exact absurd rfl huser
  · intro obj hobj t ht
    simp only [twoObjects, List.mem_cons, List.not_mem_nil, or_false] at hobj
    rcases hobj with rfl | rfl <;> cases ht <;> decide

theorem run_cycleAfterDeletion : Run (runCleanupCycle defaultConfig).run cycleAfterDeletion (.ok ()) := by
  have hrun := run_play answeringCycle (runCleanupCycle defaultConfig).run (.start (tablesOf userGone.db))
  have hends : ((runCleanupCycle defaultConfig).run.play answeringCycle (.start (tablesOf userGone.db))).2 = .ok () := by
    rfl
  rw [hends] at hrun
  exact hrun

theorem relied_cycleAfterDeletion : (sweepMonitor defaultConfig (tablesOf userGone.db) twoObjects).Relied
    (.start (tablesOf userGone.db)) cycleAfterDeletion := by
  refine relied_play rfl (fun g op => ?_) _ _
  cases op with
  | utcNow => exact ⟨trivial, late_fortyDays⟩
  | _ => first | exact ⟨rfl, trivial⟩ | exact ⟨trivial, rfl⟩ | exact ⟨trivial, trivial⟩

theorem leaves_no_objects_oneConversion :
    LeavesNoObjects leavingUser.db 7 twoObjects (ledger defaultConfig (tablesOf userGone.db) cycleAfterDeletion) ↔
      ∀ obj ∈ twoObjects, OwnObject leavingUser.db 7 obj.objectName → ¬ OthersObject leavingUser.db 7 obj.objectName →
        Reclaimable leavingUser.db 7 twoObjects obj.objectName :=
  @leaves_no_objects_iff Unit defaultConfig twoObjects verifyOne ⟨"hunter22", "DELETE"⟩ ⟨7, "argon2:hunter22"⟩ leavingUser
    userGone cycleAfterDeletion rfl run_cycleAfterDeletion relied_cycleAfterDeletion

/-- The upload and the result of the conversion stay in the bucket. -/
theorem objects_left : ¬ ∀ (verifyPassword : String → String → Bool) (payload : DeleteAccountRequest)
    (currentUser : CurrentUser) (w w' : Deployment Unit) (cfg : CleanupConfig) (bucket : List StoredObject)
    (tr : List (Event CleanupSig)), deleteAccount verifyPassword payload currentUser w = .ok w' →
    Run (runCleanupCycle cfg).run tr (.ok ()) →
    (sweepMonitor cfg (tablesOf w'.db) bucket).Relied (.start (tablesOf w'.db)) tr →
    LeavesNoObjects w.db currentUser.id bucket (ledger cfg (tablesOf w'.db) tr) := by
  intro h
  have hleaves := h verifyOne ⟨"hunter22", "DELETE"⟩ ⟨7, "argon2:hunter22"⟩ leavingUser userGone defaultConfig twoObjects
    cycleAfterDeletion rfl run_cycleAfterDeletion relied_cycleAfterDeletion
  have hkept : "upload/a.pdf" ∉ (ledger defaultConfig (tablesOf userGone.db) cycleAfterDeletion).removed := by
    decide +kernel
  have hown : OwnObject leavingUser.db 7 "upload/a.pdf" :=
    ⟨_, List.mem_cons_of_mem _ (List.mem_cons_self ..), rfl, List.mem_cons_self ..⟩
  obtain ⟨e, he, ⟨holder, hholder, hother⟩, hkey⟩ := hleaves ⟨"upload/a.pdf", some 0⟩ (List.mem_cons_self ..) hkept hown
  have hsame : ∀ e ∈ oneConversion, e.row.holder = some (.id 7) := by
    intro e he
    simp only [oneConversion, List.mem_cons, List.not_mem_nil, or_false] at he
    rcases he with rfl | rfl <;> rfl
  rw [hsame e he] at hholder
  cases hholder
  cases hother

end Concrete

end Transform.Erasure
