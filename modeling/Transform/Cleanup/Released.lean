import Transform.Cleanup.Cycle

/-!
# Cleanup.Released — which objects a cycle releases, and whose files they are

`Ledger` follows a cycle: the tables as its commits leave them, what its reads answered, and every key it passed to
storage.  `runCleanupCycle_spec` says what a cycle has released when it ends, completely or by an exception:
`spares_iff` draws from it exactly when no surviving file of the library has lost its object.
-/

namespace Transform.Cleanup

open Lib Conversions

/-! ## The database and what a cycle reads of it -/

section Tables

/-- The two tables; ids are primary keys. -/
structure Tables where
  jobs : List ConversionJob
  files : List UserFile
  job_ids : (jobs.map (·.jobId)).Nodup
  file_ids : (files.map (·.id)).Nodup

/-- An ownerless job created before `cutoff`. -/
def guestDue (cutoff : Instant) (row : ConversionJob) : Bool :=
  row.userId = none ∧ row.createdAt.any (· < cutoff)

/-- A file past its expiry that was created before `cutoff`. -/
def expiredDue (now cutoff : Instant) (row : UserFile) : Bool :=
  row.expiresAt.any (· < now) ∧ row.createdAt < cutoff

/-- A finished job created before `cutoff`. -/
def oldDue (cutoff : Instant) (row : ConversionJob) : Bool :=
  row.createdAt.any (· < cutoff) ∧ (row.status = .completed ∨ row.status = .failed)

/-- The keys a job's deletion releases. -/
def jobKeys (row : ConversionJob) : List String :=
  [some (inputObjectKey row), row.outputFile].filterMap truthy

def fileKeys (row : UserFile) : List String := [some row.fileKey].filterMap truthy

namespace Tables

def deleteJobs (db : Tables) (rows : List ConversionJob) : Tables where
  jobs := db.jobs.filter fun job => job.jobId ∉ rows.map (·.jobId)
  files := db.files
  job_ids := db.job_ids.sublist (List.filter_sublist.map _)
  file_ids := db.file_ids

def deleteFiles (db : Tables) (rows : List UserFile) : Tables where
  jobs := db.jobs
  files := db.files.filter fun file => file.id ∉ rows.map (·.id)
  job_ids := db.job_ids
  file_ids := db.file_ids.sublist (List.filter_sublist.map _)

end Tables

theorem deleteFiles_files {db : Tables} {rows : List UserFile} :
    (db.deleteFiles rows).files = db.files.filter fun file => file.id ∉ rows.map (·.id) := rfl

/-- What the environment supplied to a cycle: the cutoffs of the reads that answered, the objects listed, and
whether the expired rows were deleted. -/
structure Inputs where
  guest : Option Instant := none
  expired : Option (Instant × Instant) := none
  expiredGone : Bool := false
  temp : Option (Instant × List StoredObject) := none
  old : Option Instant := none

namespace Inputs

variable (x : Inputs) (db : Tables)

/-- The keys of everything due in a phase that ran. -/
def Released (key : String) : Prop :=
  (∃ cutoff ∈ x.guest, ∃ job ∈ db.jobs, guestDue cutoff job ∧ key ∈ jobKeys job) ∨
    (∃ t ∈ x.expired, ∃ file ∈ db.files, expiredDue t.1 t.2 file ∧ key ∈ fileKeys file) ∨
    (∃ t ∈ x.temp, ∃ obj ∈ t.2, obj.stale t.1 ∧ key = obj.objectName) ∨
    ∃ cutoff ∈ x.old, ∃ job ∈ db.jobs, oldDue cutoff job ∧ key ∈ jobKeys job

/-- The file is not among those the cycle deleted. -/
def Survives (file : UserFile) : Prop := x.expiredGone → ∀ t ∈ x.expired, ¬ expiredDue t.1 t.2 file

end Inputs

end Tables

/-! ## The ledger of a cycle -/

section Ledger

structure Ledger where
  tables : Tables
  clock : Instant := 0
  inputs : Inputs := {}
  /-- the keys passed to `remove_object` -/
  removed : List String := []

variable (cfg : CleanupConfig)

/-- How an exchange moves the ledger. -/
def Ledger.step (g : Ledger) : Event CleanupSig → Ledger
  | ⟨.utcNow, .ok now, _, _⟩ => { g with clock := now }
  | ⟨.selectGuestJobs cutoff, .ok _, _, _⟩ => { g with inputs := { g.inputs with guest := some cutoff } }
  | ⟨.selectExpiredFiles now cutoff, .ok _, _, _⟩ =>
    { g with inputs := { g.inputs with expired := some (now, cutoff) } }
  | ⟨.selectOldJobs cutoff, .ok _, _, _⟩ => { g with inputs := { g.inputs with old := some cutoff } }
  | ⟨.listObjects _, .ok objects, _, _⟩ =>
    { g with inputs := { g.inputs with temp := some (g.clock - cfg.tempRetention, objects) } }
  | ⟨.commitJobs rows, _, took, _⟩ => if took then { g with tables := g.tables.deleteJobs rows } else g
  | ⟨.commitFiles rows, _, took, _⟩ =>
    if took then { g with tables := g.tables.deleteFiles rows, inputs := { g.inputs with expiredGone := true } } else g
  | ⟨.removeObject key, _, _, _⟩ => { g with removed := g.removed ++ [key] }
  | _ => g

/-- The reads answer with the rows that match. -/
def Reads (g : Ledger) : Event CleanupSig → Prop
  | ⟨.selectGuestJobs cutoff, .ok rows, _, _⟩ => rows = g.tables.jobs.filter (guestDue cutoff)
  | ⟨.selectExpiredFiles now cutoff, .ok rows, _, _⟩ => rows = g.tables.files.filter (expiredDue now cutoff)
  | ⟨.selectOldJobs cutoff, .ok rows, _, _⟩ => rows = g.tables.jobs.filter (oldDue cutoff)
  | _ => True

def cycleMonitor : Monitor CleanupSig Ledger where
  pre _ _ := True
  rely := Reads
  step := Ledger.step cfg

end Ledger

/-! ## Releasing objects -/

section Objects

variable {cfg : CleanupConfig} {g : Ledger} {E : PyError → Ledger → Prop} {α : Type}

/-- Keys passed to storage. -/
def Ledger.release (g : Ledger) (keys : List String) : Ledger := { g with removed := g.removed ++ keys }

theorem release_nil : g.release [] = g := by
  unfold Ledger.release
  rw [List.append_nil]

theorem release_release (xs ys : List String) : (g.release xs).release ys = g.release (xs ++ ys) := by
  unfold Ledger.release
  rw [List.append_assoc]

theorem wpe_deleteObject {key : Option String} {Q : Unit → Ledger → Prop}
    (hQ : Q () (g.release (truthy key).toList)) : wpe (cycleMonitor cfg) (deleteObject key) Q E g := by
  unfold deleteObject
  generalize truthy key = key at hQ ⊢
  rcases key with _ | key
  · rw [Option.toList_none, release_nil] at hQ
    exact hQ
  · rw [wpe_tryCatch]
    exact wpe_ask.2 ⟨trivial, fun _ _ => hQ, fun _ _ _ _ => hQ⟩

theorem wpe_deleteObjects {Q : Unit → Ledger → Prop} : ∀ {keys : List (Option String)} {g : Ledger},
    Q () (g.release (keys.filterMap truthy)) → wpe (cycleMonitor cfg) (deleteObjects keys) Q E g
  | [], g, hQ => by
    rw [List.filterMap_nil, release_nil] at hQ
    exact hQ
  | key :: keys, g, hQ => by
    unfold deleteObjects
    rw [wpe_bind]
    refine wpe_deleteObject (wpe_deleteObjects ?_)
    rw [release_release]
    convert hQ using 3
    rw [List.filterMap_cons]
    rcases truthy key with _ | key <;> rfl

theorem wpe_deleteJobObjects {Q : Unit → Ledger → Prop} : ∀ {rows : List ConversionJob} {g : Ledger},
    Q () (g.release (rows.flatMap jobKeys)) → wpe (cycleMonitor cfg) (deleteJobObjects rows) Q E g
  | [], g, hQ => by
    rw [List.flatMap_nil, release_nil] at hQ
    exact hQ
  | row :: rows, g, hQ => by
    unfold deleteJobObjects
    rw [wpe_bind]
    refine wpe_deleteObjects (wpe_deleteJobObjects ?_)
    rw [release_release]
    rw [List.flatMap_cons] at hQ
    exact hQ

theorem wpe_deleteFileObjects {Q : Unit → Ledger → Prop} : ∀ {rows : List UserFile} {g : Ledger},
    Q () (g.release (rows.flatMap fileKeys)) → wpe (cycleMonitor cfg) (deleteFileObjects rows) Q E g
  | [], g, hQ => by
    rw [List.flatMap_nil, release_nil] at hQ
    exact hQ
  | row :: rows, g, hQ => by
    unfold deleteFileObjects
    rw [wpe_bind]
    refine wpe_deleteObjects (wpe_deleteFileObjects ?_)
    rw [release_release]
    rw [List.flatMap_cons] at hQ
    exact hQ

theorem wpe_removeStaleObjects {cutoff : Instant} : ∀ {objects : List StoredObject} {g : Ledger}
    {Q : ℕ → Ledger → Prop}, (∀ n, Q n (g.release ((objects.filter (·.stale cutoff)).map (·.objectName)))) →
    wpe (cycleMonitor cfg) (removeStaleObjects cutoff objects) Q E g
  | [], g, Q, hQ => by
    have h := hQ 0
    rw [List.filter_nil, List.map_nil, release_nil] at h
    exact h
  | obj :: objects, g, Q, hQ => by
    unfold removeStaleObjects removeStale
    rw [wpe_bind]
    split_ifs with hs
    · rw [List.filter_cons_of_pos hs, List.map_cons] at hQ
      have rest : ∀ m : ℕ, wpe (cycleMonitor cfg)
          (do let rest ← removeStaleObjects cutoff objects; return m + rest) Q E (g.release [obj.objectName]) := by
        intro m
        rw [wpe_bind]
        refine wpe_removeStaleObjects fun n => ?_
        rw [release_release]
        exact hQ (m + n)
      rw [wpe_tryCatch, wpe_bind]
      exact wpe_ask.2 ⟨trivial, fun _ _ => rest 1, fun _ _ _ _ => rest 0⟩
    · rw [List.filter_cons_of_neg hs] at hQ
      rw [wpe_pure, wpe_bind]
      exact wpe_removeStaleObjects fun n => hQ (0 + n)

end Objects

/-! ## Rows deleted by id -/

section Rows

/-- Deleting the rows that match by their ids deletes just them, ids being unique. -/
theorem mem_filter_ids {α : Type} {id : α → String} {l : List α} (hl : (l.map id).Nodup) {p : α → Bool} {a : α} :
    a ∈ l.filter (fun b => id b ∉ (l.filter p).map id) ↔ a ∈ l ∧ ¬ p a := by
  rw [List.mem_filter, decide_eq_true_iff]
  refine and_congr_right fun ha => not_congr ?_
  constructor
  · intro h
    obtain ⟨b, hb, hid⟩ := List.mem_map.1 h
    obtain ⟨hbl, hp⟩ := List.mem_filter.1 hb
    rwa [List.inj_on_of_nodup_map hl hbl ha hid] at hp
  · intro hp
    exact List.mem_map_of_mem (List.mem_filter.2 ⟨ha, hp⟩)

end Rows

/-! ## What a cycle has released when it ends -/

section Swept

/-- The keys passed to storage are those of what was due, and the files left are those that survive. -/
structure Swept (db : Tables) (g : Ledger) : Prop where
  removed : ∀ key, key ∈ g.removed ↔ g.inputs.Released db key
  files : ∀ file, file ∈ g.tables.files ↔ file ∈ db.files ∧ g.inputs.Survives file

/-- The file table, before its phase. -/
structure FilesWhole (db : Tables) (g : Ledger) : Prop where
  files : g.tables.files = db.files
  expired : g.inputs.expired = none
  expiredGone : g.inputs.expiredGone = false
  temp : g.inputs.temp = none

/-- The job table, past the guest phase. -/
structure JobsLeft (db : Tables) (g : Ledger) : Prop where
  jobs : ∀ job, job ∈ g.tables.jobs ↔ job ∈ db.jobs ∧ ∀ cutoff ∈ g.inputs.guest, ¬ guestDue cutoff job
  old : g.inputs.old = none

variable {cfg : CleanupConfig} {db : Tables} {g : Ledger}

/-- The ledger before a cycle. -/
def Ledger.start (db : Tables) : Ledger := { tables := db }

theorem swept_start : Swept db (.start db) where
  removed key := by simp [Ledger.start, Inputs.Released]
  files file := by simp [Ledger.start, Inputs.Survives]

/-- The keys of the rows are released; only the job table may have changed beside. -/
structure Freed (g : Ledger) (keys : List String) (g' : Ledger) : Prop where
  removed : g'.removed = g.removed ++ keys
  inputs : g'.inputs = g.inputs
  files : g'.tables.files = g.tables.files

theorem wpe_releaseJobs {rows : List ConversionJob} {Q : ℕ → Ledger → Prop} {E : PyError → Ledger → Prop}
    (hQ : ∀ g', Freed g (rows.flatMap jobKeys) g' → g'.tables.jobs = (g.tables.deleteJobs rows).jobs →
      Q rows.length g')
    (hE : ∀ e g', Freed g (rows.flatMap jobKeys) g' → E e g') :
    wpe (cycleMonitor cfg) (do deleteJobObjects rows; commitJobs rows; return rows.length) Q E g := by
  rw [wpe_bind]
  refine wpe_deleteJobObjects ?_
  rw [wpe_bind]
  unfold commitJobs
  split_ifs with hrows
  · refine hQ _ ⟨rfl, rfl, rfl⟩ ?_
    simp [hrows, Tables.deleteJobs, Ledger.release]
  · refine wpe_ask.2 ⟨trivial, fun _ _ => hQ _ ⟨rfl, rfl, rfl⟩ rfl, fun e took _ _ => ?_⟩
    rcases took with _ | _ <;> exact hE e _ ⟨rfl, rfl, rfl⟩

theorem mem_flatMap_filter {α : Type} {p : α → Bool} {keys : α → List String} {l : List α} {key : String} :
    key ∈ (l.filter p).flatMap keys ↔ ∃ a ∈ l, p a ∧ key ∈ keys a := by
  simp only [List.mem_flatMap, List.mem_filter, and_assoc]

theorem cleanupGuestJobs_spec :
    wpe (cycleMonitor cfg) (cleanupGuestJobs cfg)
      (fun _ g => Swept db g ∧ JobsLeft db g ∧ FilesWhole db g) (fun _ g => Swept db g) (.start db) := by
  unfold cleanupGuestJobs
  rw [wpe_bind]
  refine wpe_ask.2 ⟨trivial, fun now _ => ?_, fun _ _ _ _ => swept_start⟩
  rw [wpe_bind]
  refine wpe_ask.2 ⟨trivial, fun rows hrows => ?_, fun _ _ _ _ => ⟨swept_start.removed, swept_start.files⟩⟩
  obtain rfl : rows = db.jobs.filter (guestDue (now - cfg.guestJobRetention)) := hrows
  generalize now - cfg.guestJobRetention = cutoff
  have swept : ∀ g' : Ledger, g'.removed = (db.jobs.filter (guestDue cutoff)).flatMap jobKeys →
      g'.inputs = { guest := some cutoff } → g'.tables.files = db.files → Swept db g' := by
    intro g' hremoved hinputs hfiles
    refine ⟨fun key => ?_, fun file => ?_⟩
    · rw [hremoved, hinputs, mem_flatMap_filter]
      simp [Inputs.Released]
    · rw [hfiles, hinputs]
      simp [Inputs.Survives]
  refine wpe_releaseJobs (fun g' hf hjobs => ?_) fun e g' hf => swept g' hf.removed hf.inputs hf.files
  refine ⟨swept g' hf.removed hf.inputs hf.files, ⟨fun job => ?_, by rw [hf.inputs]; rfl⟩, hf.files, ?_, ?_, ?_⟩
  · have hmem : job ∈ g'.tables.jobs ↔ job ∈ db.jobs ∧ ¬ guestDue cutoff job := by
      rw [hjobs]
      exact mem_filter_ids db.job_ids
    have hguest : g'.inputs.guest = some cutoff := by rw [hf.inputs]; rfl
    rw [hmem, hguest]
    simp
  · rw [hf.inputs]
    rfl
  · rw [hf.inputs]
    rfl
  · rw [hf.inputs]
    rfl

theorem cleanupExpiredFiles_spec (hs : Swept db g) (hj : JobsLeft db g) (hf : FilesWhole db g) :
    wpe (cycleMonitor cfg) (cleanupExpiredFiles cfg)
      (fun _ g => Swept db g ∧ JobsLeft db g ∧ g.inputs.temp = none) (fun _ g => Swept db g) g := by
  unfold cleanupExpiredFiles
  rw [wpe_bind]
  refine wpe_ask.2 ⟨trivial, fun now _ => ?_, fun _ _ _ _ => hs⟩
  rw [wpe_bind]
  refine wpe_ask.2 ⟨trivial, fun rows hrows => ?_, fun _ _ _ _ => ⟨hs.removed, hs.files⟩⟩
  obtain rfl : rows = g.tables.files.filter (expiredDue now (now - cfg.guestFileRetention)) := hrows
  generalize now - cfg.guestFileRetention = cutoff
  rw [hf.files]
  -- the objects are gone whatever becomes of the rows
  have removed : ∀ key gone, key ∈ g.removed ++ (db.files.filter (expiredDue now cutoff)).flatMap fileKeys ↔
      ({ g.inputs with expired := some (now, cutoff), expiredGone := gone } : Inputs).Released db key := by
    intro key gone
    rw [List.mem_append, mem_flatMap_filter, hs.removed]
    simp [Inputs.Released, hf.expired, hf.temp, hj.old]
  have kept : ∀ g' : Ledger, g'.removed = g.removed ++ (db.files.filter (expiredDue now cutoff)).flatMap fileKeys →
      g'.inputs = { g.inputs with expired := some (now, cutoff) } → g'.tables.files = g.tables.files →
      Swept db g' := by
    intro g' hremoved hinputs hfiles
    refine ⟨fun key => ?_, fun file => ?_⟩
    · rw [hremoved, hinputs]
      exact removed key g.inputs.expiredGone
    · rw [hfiles, hinputs, hf.files]
      simp [Inputs.Survives, hf.expiredGone]
  have gone : ∀ g' : Ledger, g'.removed = g.removed ++ (db.files.filter (expiredDue now cutoff)).flatMap fileKeys →
      g'.inputs = { g.inputs with expired := some (now, cutoff), expiredGone := true } →
      g'.tables.files = (g.tables.deleteFiles (db.files.filter (expiredDue now cutoff))).files → Swept db g' := by
    intro g' hremoved hinputs hfiles
    refine ⟨fun key => ?_, fun file => ?_⟩
    · rw [hremoved, hinputs]
      exact removed key true
    · have hmem : file ∈ g'.tables.files ↔ file ∈ db.files ∧ ¬ expiredDue now cutoff file := by
        rw [hfiles, deleteFiles_files, hf.files]
        exact mem_filter_ids db.file_ids
      rw [hmem, hinputs]
      simp [Inputs.Survives]
  rw [wpe_bind]
  refine wpe_deleteFileObjects ?_
  rw [wpe_bind]
  unfold commitFiles
  split_ifs
  · exact ⟨kept _ rfl rfl rfl, ⟨hj.jobs, hj.old⟩, hf.temp⟩
  · refine wpe_ask.2 ⟨trivial, fun _ _ => ⟨gone _ rfl rfl rfl, ⟨hj.jobs, hj.old⟩, hf.temp⟩, fun e took _ _ => ?_⟩
    rcases took with _ | _
    · exact kept _ rfl rfl rfl
    · exact gone _ rfl rfl rfl

theorem cleanupTempFiles_spec (hs : Swept db g) (hj : JobsLeft db g) (ht : g.inputs.temp = none) :
    wpe (cycleMonitor cfg) (cleanupTempFiles cfg) (fun _ g => Swept db g ∧ JobsLeft db g)
      (fun _ g => Swept db g) g := by
  unfold cleanupTempFiles
  rw [wpe_bind]
  refine wpe_ask.2 ⟨trivial, fun now _ => ?_, fun _ _ _ _ => hs⟩
  rw [wpe_bind, wpe_tryCatch]
  refine wpe_ask.2 ⟨trivial, fun objects _ => ?_, fun _ _ _ _ => ?_⟩
  · refine wpe_removeStaleObjects fun n => ⟨⟨fun key => ?_, hs.files⟩, ⟨hj.jobs, hj.old⟩⟩
    show key ∈ g.removed ++ _ ↔ _
    rw [List.mem_append, hs.removed]
    constructor
    · rintro (h | h)
      · rcases h with h | h | ⟨t, h, -⟩ | h
        · exact .inl h
        · exact .inr (.inl h)
        · rw [ht] at h
          cases h
        · exact .inr (.inr (.inr h))
      · obtain ⟨obj, hobj, rfl⟩ := List.mem_map.1 h
        obtain ⟨hmem, hstale⟩ := List.mem_filter.1 hobj
        exact .inr (.inr (.inl ⟨_, rfl, obj, hmem, hstale, rfl⟩))
    · rintro (h | h | ⟨t, h, obj, hmem, hstale, rfl⟩ | h)
      · exact .inl (.inl h)
      · exact .inl (.inr (.inl h))
      · obtain rfl := Option.some.inj h
        exact .inr (List.mem_map_of_mem (List.mem_filter.2 ⟨hmem, hstale⟩))
      · exact .inl (.inr (.inr (.inr h)))
  · exact ⟨⟨hs.removed, hs.files⟩, ⟨hj.jobs, hj.old⟩⟩

theorem archiveOldJobs_spec (hs : Swept db g) (hj : JobsLeft db g) :
    wpe (cycleMonitor cfg) (archiveOldJobs cfg) (fun _ g => Swept db g) (fun _ g => Swept db g) g := by
  unfold archiveOldJobs
  rw [wpe_bind]
  refine wpe_ask.2 ⟨trivial, fun now _ => ?_, fun _ _ _ _ => hs⟩
  rw [wpe_bind]
  refine wpe_ask.2 ⟨trivial, fun rows hrows => ?_, fun _ _ _ _ => ⟨hs.removed, hs.files⟩⟩
  obtain rfl : rows = g.tables.jobs.filter (oldDue (now - cfg.archiveAfter)) := hrows
  generalize now - cfg.archiveAfter = cutoff
  have swept : ∀ g' : Ledger, g'.removed = g.removed ++ (g.tables.jobs.filter (oldDue cutoff)).flatMap jobKeys →
      g'.inputs = { g.inputs with old := some cutoff } → g'.tables.files = g.tables.files → Swept db g' := by
    intro g' hremoved hinputs hfiles
    refine ⟨fun key => ?_, fun file => ?_⟩
    · rw [hremoved, hinputs, List.mem_append, hs.removed, mem_flatMap_filter]
      -- an old job that is gone by now was a guest's, and its objects with it
      constructor
      · rintro (h | ⟨job, hjob, hold, hkey⟩)
        · rcases h with h | h | h | ⟨c, hc, -⟩
          · exact .inl h
          · exact .inr (.inl h)
          · exact .inr (.inr (.inl h))
          · rw [hj.old] at hc
            cases hc
        · exact .inr (.inr (.inr ⟨cutoff, rfl, job, ((hj.jobs job).1 hjob).1, hold, hkey⟩))
      · rintro (h | h | h | ⟨c, hc, job, hjob, hold, hkey⟩)
        · exact .inl (.inl h)
        · exact .inl (.inr (.inl h))
        · exact .inl (.inr (.inr (.inl h)))
        · obtain rfl : cutoff = c := Option.some.inj hc
          by_cases hguest : ∃ c ∈ g.inputs.guest, guestDue c job
          · obtain ⟨c, hc, hdue⟩ := hguest
            exact .inl (.inl ⟨c, hc, job, hjob, hdue, hkey⟩)
          · refine .inr ⟨job, (hj.jobs job).2 ⟨hjob, fun c hc hdue => ?_⟩, hold, hkey⟩
            exact hguest ⟨c, hc, hdue⟩
    · rw [hfiles, hinputs]
      exact hs.files file
  exact wpe_releaseJobs (fun g' hf _ => swept g' hf.removed hf.inputs hf.files)
    fun _ g' hf => swept g' hf.removed hf.inputs hf.files

/-- **What a cycle releases**, whether it ends or is cut short by the database: the objects of everything due in the
phases it reached. -/
theorem runCleanupCycle_spec :
    wp (cycleMonitor cfg) (runCleanupCycle cfg).run (fun _ g => Swept db g) (.start db) := by
  have spec : wpe (cycleMonitor cfg) (runCleanupCycle cfg) (fun _ g => Swept db g) (fun _ g => Swept db g)
      (.start db) := by
    unfold runCleanupCycle
    rw [wpe_bind]
    refine wpe_mono cleanupGuestJobs_spec ?_ fun _ _ h => h
    rintro - g ⟨hs, hj, hf⟩
    rw [wpe_bind]
    refine wpe_mono (cleanupExpiredFiles_spec hs hj hf) ?_ fun _ _ h => h
    rintro - g ⟨hs, hj, ht⟩
    rw [wpe_bind]
    refine wpe_mono (cleanupTempFiles_spec hs hj ht) ?_ fun _ _ h => h
    rintro - g ⟨hs, hj⟩
    rw [wpe_bind]
    refine wpe_mono (archiveOldJobs_spec hs hj) ?_ fun _ _ h => h
    rintro - g hs
    unfold cleanupTelemetry
    rw [wpe_bind, wpe_bind]
    refine wpe_ask.2 ⟨trivial, fun now _ => ?_, fun _ _ _ _ => hs⟩
    exact wpe_ask.2 ⟨trivial, fun _ _ => ⟨hs.removed, hs.files⟩, fun _ _ _ _ => ⟨hs.removed, hs.files⟩⟩
  exact wp_mono (fun r g hr => by rcases r with e | a <;> exact hr) spec

end Swept

/-! ## Library files -/

section Library

/-- The ledger after the exchanges of a cycle on `db`. -/
def ledger (cfg : CleanupConfig) (db : Tables) (tr : List (Event CleanupSig)) : Ledger :=
  tr.foldl (Ledger.step cfg) (.start db)

/-- No file left in the library has had its object passed to storage. -/
def Spares (g : Ledger) : Prop := ∀ file ∈ g.tables.files, file.fileKey ∉ g.removed

/-- **Library files and the cleanup**: a cycle spares the objects of the files it leaves exactly if none of those
files has the key of something due: of a guest's or an old job's input or output, of an expired file, or of a stale
temp object. -/
theorem spares_iff {cfg : CleanupConfig} {db : Tables} {tr : List (Event CleanupSig)} {r : Except PyError Unit}
    (hr : Run (runCleanupCycle cfg).run tr r) (hM : (cycleMonitor cfg).Relied (.start db) tr) :
    Spares (ledger cfg db tr) ↔
      ∀ file ∈ db.files, (ledger cfg db tr).inputs.Survives file →
        ¬ (ledger cfg db tr).inputs.Released db file.fileKey := by
  have hs : Swept db (ledger cfg db tr) := wp_run runCleanupCycle_spec hr hM
  unfold Spares
  constructor
  · intro h file hfile hsurvives hreleased
    exact h file ((hs.files file).2 ⟨hfile, hsurvives⟩) ((hs.removed _).2 hreleased)
  · intro h file hfile hremoved
    obtain ⟨hdb, hsurvives⟩ := (hs.files file).1 hfile
    exact h file hdb hsurvives ((hs.removed _).1 hremoved)

/-! ### A concrete cycle -/

def hours (n : ℤ) : ℤ := n * 3600 * 1000000

/-- The windows a worker starts with. -/
def defaultConfig : CleanupConfig := ⟨hours 24, hours 24, hours 1, hours (30 * 24), hours (30 * 24)⟩

/-- A database and a storage that answer, forty days after the epoch. -/
def fortyDays : Env CleanupSig Ledger where
  reply g
    | .utcNow => .ok (hours (40 * 24))
    | .selectGuestJobs cutoff => .ok (g.tables.jobs.filter (guestDue cutoff))
    | .selectExpiredFiles now cutoff => .ok (g.tables.files.filter (expiredDue now cutoff))
    | .selectOldJobs cutoff => .ok (g.tables.jobs.filter (oldDue cutoff))
    | .deleteTelemetry _ => .ok (0 : ℕ)
    | .listObjects _ => .ok []
    | .commitJobs _ => .ok ()
    | .commitFiles _ => .ok ()
    | .removeObject _ => .ok ()
  effect := Ledger.step defaultConfig

/-- The exchanges of a cycle against them. -/
def cycleRun (db : Tables) : List (Event CleanupSig) :=
  ((runCleanupCycle defaultConfig).run.play fortyDays (.start db)).1

theorem run_cycleRun (db : Tables) : Run (runCleanupCycle defaultConfig).run (cycleRun db)
    ((runCleanupCycle defaultConfig).run.play fortyDays (.start db)).2 :=
  run_play _ _ _

theorem relied_cycleRun (db : Tables) : (cycleMonitor defaultConfig).Relied (.start db) (cycleRun db) :=
  relied_play rfl (fun g op => by cases op <;> first | rfl | trivial) _ _

/-- A file of the library, and the finished conversion that was made from it. -/
def convertedFile : Tables where
  jobs := [{ jobId := "job-1", conversion := ⟨"pdf", "docx"⟩, inputFile := "a.pdf", objectKey := "up/a.pdf",
             outputFile := some "outputs/a.docx", status := .completed, userId := some 7, createdAt := some 0 }]
  files := [⟨"file-1", "up/a.pdf", 0, none⟩]
  job_ids := by simp
  file_ids := by simp

theorem spares_iff_convertedFile :
    Spares (ledger defaultConfig convertedFile (cycleRun convertedFile)) ↔
      ∀ file ∈ convertedFile.files,
        (ledger defaultConfig convertedFile (cycleRun convertedFile)).inputs.Survives file →
        ¬ (ledger defaultConfig convertedFile (cycleRun convertedFile)).inputs.Released convertedFile file.fileKey :=
  spares_iff (run_cycleRun _) (relied_cycleRun _)

/-- Archiving the conversion deletes the object of the library file. -/
theorem library_file_released : ¬ ∀ (cfg : CleanupConfig) (db : Tables) (tr : List (Event CleanupSig))
    (r : Except PyError Unit), Run (runCleanupCycle cfg).run tr r → (cycleMonitor cfg).Relied (.start db) tr →
    Spares (ledger cfg db tr) := by
  intro h
  have hspares := h defaultConfig convertedFile _ _ (run_cycleRun _) (relied_cycleRun _)
  exact hspares ⟨"file-1", "up/a.pdf", 0, none⟩ (List.mem_cons_self ..) (List.mem_cons_self ..)

end Library

end Transform.Cleanup
