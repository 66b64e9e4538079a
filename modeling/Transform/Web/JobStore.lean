import Mathlib.Data.List.Nodup
import Mathlib.Data.List.Induction
import Mathlib.Data.Rat.Floor
import Mathlib.Algebra.Order.Floor.Ring
import Mathlib.Logic.Function.Basic
import Transform.Lib.Keyed

/-!
# Web.JobStore — the conversions a page shows

The store behind the queue and the history: progress frames of a job's stream are folded into its row (`onProgress`),
and a refresh puts the server's list in the place of the rows (`reconcileJobs`).

* `keeps_onProgress`, `keeps_fromServer`: when a frame and a copy of the server keep the percentage that a row shows.
* `oneRow_reconcileJobs`: a refresh lists no job twice.
* `shown_forward_iff`: along every sequence of frames, refreshes and retries no row falls back or is lost, exactly if
  every frame and every list of the server is timely.
-/

namespace Transform.Web

open Lib

/-! ## Rows -/

section Rows

inductive Numeric
  | number (value : ℚ)
  | text (value : String)
  deriving DecidableEq

/-- A row of the server's history. -/
structure ConversionJobResponse where
  jobId : String
  status : String
  sourceFormat : String := ""
  targetFormat : String := ""
  inputFile : String := ""
  outputFile : Option String := none
  objectKey : Option String := none
  downloadUrl : Option String := none
  serverErrorMessage : Option String := none
  creditsUsed : Option ℚ := none
  computeDurationMs : Option ℚ := none
  inputSizeBytes : Option ℚ := none
  outputSizeBytes : Option ℚ := none
  progress : Option Numeric := none
  serverCreatedAt : Option String := none
  dataKeyWrapped : Option String := none
  clientEncrypted : Bool := false

/-- A row of the store: the fields of the server, and those that only this browser has. -/
structure UiJob extends ConversionJobResponse where
  fileName : Option String := none
  createdAt : Option String := none
  errorMessage : Option String := none
  finishedAt : Option String := none

/-- One frame of a job's progress stream. -/
structure JobProgressEvent where
  jobId : String
  status : String
  progress : Option Numeric := none
  message : Option String := none
  computeDurationMs : Option ℚ := none
  creditsUsed : Option ℚ := none
  inputSizeBytes : Option ℚ := none
  outputSizeBytes : Option ℚ := none
  outputFile : Option String := none

def inFlightStatuses : List String := ["PENDING", "PROCESSING", "AWAITING_UPLOAD"]

def finishedStatuses : List String := ["COMPLETED", "FAILED"]

theorem finished_not_inFlight {status : String} (hf : status ∈ finishedStatuses) : status ∉ inFlightStatuses := by
  rcases List.mem_cons.1 hf with rfl | hf
  · decide
  · obtain rfl := List.mem_singleton.1 hf
    decide

end Rows

/-! ## Progress -/

section Progress

-- the finite number that a text spells, as `Number` reads it
variable (readNumber : String → Option ℚ)

def asNumeric : Option Numeric → Option ℚ
  | some (.number value) => some value
  | some (.text value) => readNumber value
  | none => none

@[simp] theorem asNumeric_number {value : ℚ} : asNumeric readNumber (some (.number value)) = some value := rfl

def mergeProgress (previous incoming : Option Numeric) (completed : Bool) : Option Numeric :=
  if completed then some (.number 100)
  else match asNumeric readNumber incoming with
    | none => previous
    | some parsed => match asNumeric readNumber previous with
      | none => some (.number parsed)
      | some prior => some (.number (max prior parsed))

/-- `Math.round`, held between 0 and 100. -/
def wholePercent (value : ℚ) : ℤ := max 0 (min 100 ⌊value + 1 / 2⌋)

def displayPercent (value : Option ℚ) : Option ℤ := value.map wholePercent

def jobProgress (status : String) (progress : Option Numeric) : Option ℚ :=
  match asNumeric readNumber progress with
  | some pct => some pct
  | none => if status = "COMPLETED" then some 100 else none

/-- The percentage that a row with the status and the progress shows. -/
def shownPercent (status : String) (progress : Option Numeric) : Option ℤ :=
  displayPercent (jobProgress readNumber status progress)

/-- A percentage, once shown, is still shown and has not become less. -/
def Keeps (before after : Option ℤ) : Prop := ∀ p ∈ before, ∃ q ∈ after, p ≤ q

theorem keeps_some {p q : ℤ} : Keeps (some p) (some q) ↔ p ≤ q := by simp [Keeps]

theorem keeps_none {p : ℤ} : ¬ Keeps (some p) none := by simp [Keeps]

theorem keeps_unknown {after : Option ℤ} : Keeps none after := by simp [Keeps]

instance decidableKeeps : ∀ before after : Option ℤ, Decidable (Keeps before after)
  | some p, some q => decidable_of_iff (p ≤ q) keeps_some.symm
  | some _, none => isFalse keeps_none
  | none, _ => isTrue keeps_unknown

theorem keeps_refl {p : Option ℤ} : Keeps p p := fun q hq => ⟨q, hq, le_rfl⟩

theorem wholePercent_mono {a b : ℚ} (h : a ≤ b) : wholePercent a ≤ wholePercent b := by
  unfold wholePercent
  have hfloor : ⌊a + 1 / 2⌋ ≤ ⌊b + 1 / 2⌋ := Int.floor_le_floor (by linarith)
  omega

theorem wholePercent_le {a : ℚ} : wholePercent a ≤ 100 := by
  unfold wholePercent
  omega

theorem wholePercent_hundred : wholePercent 100 = 100 := by
  unfold wholePercent
  norm_num

variable {readNumber} {status : String} {progress : Option Numeric}

theorem shownPercent_of_number {n : ℚ} (h : asNumeric readNumber progress = some n) :
    shownPercent readNumber status progress = some (wholePercent n) := by
  simp [shownPercent, displayPercent, jobProgress, h]

theorem shownPercent_completed (h : asNumeric readNumber progress = none) :
    shownPercent readNumber "COMPLETED" progress = some 100 := by
  simp [shownPercent, displayPercent, jobProgress, h, wholePercent_hundred]

theorem shownPercent_none (h : asNumeric readNumber progress = none) (hs : status ≠ "COMPLETED") :
    shownPercent readNumber status progress = none := by
  simp [shownPercent, displayPercent, jobProgress, h, hs]

theorem shownPercent_le {p : ℤ} (h : shownPercent readNumber status progress = some p) : p ≤ 100 := by
  obtain ⟨n, -, rfl⟩ := Option.map_eq_some_iff.1 h
  exact wholePercent_le

end Progress

/-! ## One row -/

section Row

variable (readNumber : String → Option ℚ)

/-- What a frame makes of the row of its job. -/
def onProgress (job : UiJob) (evt : JobProgressEvent) (now : String) : UiJob :=
  { job with
    status := evt.status
    progress := mergeProgress readNumber job.progress evt.progress (evt.status = "COMPLETED")
    errorMessage := if evt.status = "FAILED" then evt.message <|> job.errorMessage else job.errorMessage
    creditsUsed := evt.creditsUsed <|> job.creditsUsed
    computeDurationMs := evt.computeDurationMs <|> job.computeDurationMs
    inputSizeBytes := evt.inputSizeBytes <|> job.inputSizeBytes
    outputSizeBytes := evt.outputSizeBytes <|> job.outputSizeBytes
    outputFile := evt.outputFile <|> job.outputFile
    finishedAt := if evt.status ∈ finishedStatuses then job.finishedAt <|> some now else job.finishedAt }

/-- What a refresh makes of the server's copy of a job, and of the row that this session has of it. -/
def fromServer (session : Option UiJob) (job : ConversionJobResponse) : UiJob :=
  match session with
  | none => { job with errorMessage := job.serverErrorMessage }
  | some row => { row with toConversionJobResponse := { job with progress := row.progress } }

/-- What a transport failure makes of a row. -/
def reduceStreamError (job : UiJob) : UiJob := job

/-- What a retry that was accepted makes of a row. -/
def retried (updated : ConversionJobResponse) (job : UiJob) : UiJob :=
  { job with
    status := "PENDING"
    progress := some (.number 0)
    outputFile := updated.outputFile
    downloadUrl := updated.downloadUrl
    errorMessage := none
    finishedAt := none }

/-- The percentage of a row. -/
def UiJob.percent (job : UiJob) : Option ℤ := shownPercent readNumber job.status job.progress

variable {readNumber} {job : UiJob}

/-- A row shows 100% for no other reason than that it is completed. -/
def ByStatusOnly (readNumber : String → Option ℚ) (job : UiJob) : Prop :=
  job.status = "COMPLETED" ∧ asNumeric readNumber job.progress = none

instance : Decidable (ByStatusOnly readNumber job) := by
  unfold ByStatusOnly
  infer_instance

theorem asNumeric_mergeProgress {previous incoming : Option Numeric} :
    asNumeric readNumber (mergeProgress readNumber previous incoming false) =
      match asNumeric readNumber previous, asNumeric readNumber incoming with
      | some prior, some parsed => some (max prior parsed)
      | some prior, none => some prior
      | none, parsed => parsed := by
  unfold mergeProgress
  rcases hprior : asNumeric readNumber previous with _ | prior <;>
    rcases hparsed : asNumeric readNumber incoming with _ | parsed <;> simp [hprior]

/-- **A frame** keeps the percentage of a row, except of one that has it by its status only: there it has to say
`COMPLETED` again, or to carry 100% itself. -/
theorem keeps_onProgress {evt : JobProgressEvent} {now : String} :
    Keeps (job.percent readNumber) ((onProgress readNumber job evt now).percent readNumber) ↔
      (ByStatusOnly readNumber job → evt.status = "COMPLETED" ∨
        displayPercent (asNumeric readNumber evt.progress) = some 100) := by
  by_cases hdone : evt.status = "COMPLETED"
  · have hafter : (onProgress readNumber job evt now).percent readNumber = some 100 := by
      unfold UiJob.percent
      rw [shownPercent_of_number (n := 100) (by simp [onProgress, mergeProgress, hdone]), wholePercent_hundred]
    rw [hafter]
    exact iff_of_true (fun p hp => ⟨100, rfl, shownPercent_le hp⟩) fun _ => .inl hdone
  · have hmerge : asNumeric readNumber (onProgress readNumber job evt now).progress =
        asNumeric readNumber (mergeProgress readNumber job.progress evt.progress false) := by simp [onProgress, hdone]
    rw [asNumeric_mergeProgress] at hmerge
    have hstatus : (onProgress readNumber job evt now).status = evt.status := rfl
    unfold UiJob.percent ByStatusOnly
    rw [hstatus]
    rcases hprior : asNumeric readNumber job.progress with _ | prior
    · by_cases hjob : job.status = "COMPLETED"
      · rw [hjob, shownPercent_completed hprior]
        rcases hparsed : asNumeric readNumber evt.progress with _ | parsed
        · rw [shownPercent_none (by rw [hmerge, hprior, hparsed]) hdone]
          exact iff_of_false keeps_none (by simp [hdone, displayPercent])
        · rw [shownPercent_of_number (n := parsed) (by rw [hmerge, hprior, hparsed]), keeps_some]
          have hle := wholePercent_le (a := parsed)
          simp only [true_and, hdone, false_or, displayPercent, Option.map_some, Option.some.injEq, forall_const]
          omega
      · rw [shownPercent_none hprior hjob]
        exact iff_of_true keeps_unknown fun h => absurd h.1 hjob
    · rw [shownPercent_of_number hprior]
      refine iff_of_true ?_ fun h => by cases h.2
      rcases hparsed : asNumeric readNumber evt.progress with _ | parsed
      · rw [shownPercent_of_number (n := prior) (by rw [hmerge, hprior, hparsed])]
        exact keeps_refl
      · rw [shownPercent_of_number (n := max prior parsed) (by rw [hmerge, hprior, hparsed]), keeps_some]
        exact wholePercent_mono (le_max_left _ _)

/-- **A copy of the server** keeps the percentage of the row that this session has of the job, except of one that has it
by its status only: there the copy has to be completed too. -/
theorem keeps_fromServer {copy : ConversionJobResponse} :
    Keeps (job.percent readNumber) ((fromServer (some job) copy).percent readNumber) ↔
      (ByStatusOnly readNumber job → copy.status = "COMPLETED") := by
  unfold UiJob.percent ByStatusOnly
  have hstatus : (fromServer (some job) copy).status = copy.status := rfl
  have hprogress : (fromServer (some job) copy).progress = job.progress := rfl
  rw [hstatus, hprogress]
  rcases hprior : asNumeric readNumber job.progress with _ | prior
  · by_cases hjob : job.status = "COMPLETED"
    · rw [hjob, shownPercent_completed hprior]
      by_cases hcopy : copy.status = "COMPLETED"
      · rw [hcopy, shownPercent_completed hprior]
        exact iff_of_true keeps_refl fun _ => rfl
      · rw [shownPercent_none hprior hcopy]
        exact iff_of_false keeps_none (by simp [hcopy])
    · rw [shownPercent_none hprior hjob]
      exact iff_of_true keeps_unknown fun h => absurd h.1 hjob
  · rw [shownPercent_of_number hprior, shownPercent_of_number hprior]
    exact iff_of_true keeps_refl fun h => by cases h.2

end Row

/-! ## The list -/

section List

/-- `new Map(rows.map((row) => [row.job_id, row]))`. -/
def byId (rows : List UiJob) : List (String × UiJob) := rows.foldl (fun entries row => mapSet entries row.jobId row) []

def reconcileJobs (previous : List UiJob) (serverJobs : List ConversionJobResponse) (sessionJobIds : List String) :
    List UiJob :=
  let sessionJobs := byId (previous.filter (·.jobId ∈ sessionJobIds))
  let reconciled := serverJobs.map fun job => fromServer (mapGet sessionJobs job.jobId) job
  let inFlight := byId (previous.filter fun job => job.jobId ∈ sessionJobIds && job.status ∈ inFlightStatuses)
  let serverIds := serverJobs.map (·.jobId)
  let notYetIndexed := (inFlight.map (·.2)).filter (·.jobId ∉ serverIds)
  notYetIndexed ++ reconciled

def OneRowEach (jobs : List UiJob) : Prop := (jobs.map (·.jobId)).Nodup

variable {jobs previous : List UiJob} {serverJobs : List ConversionJobResponse} {sessionJobIds : List String}

theorem byId_of_oneRow (h : OneRowEach jobs) : byId jobs = jobs.map fun row => (row.jobId, row) := by
  unfold byId
  induction jobs using List.reverseRecOn with
  | nil => rfl
  | append_singleton jobs row ih =>
    rw [OneRowEach, List.map_append, List.nodup_append] at h
    have hnew : row.jobId ∉ (jobs.map fun row => (row.jobId, row)).map (·.1) := by
      rw [List.map_map]
      exact fun hmem => h.2.2 _ hmem _ List.mem_cons_self rfl
    rw [List.foldl_append, ih h.1, List.foldl_cons, List.foldl_nil, mapSet_new hnew, List.map_append]
    rfl

theorem oneRow_filter {p : UiJob → Bool} (h : OneRowEach jobs) : OneRowEach (jobs.filter p) :=
  h.sublist (List.filter_sublist.map _)

def rowOf (jobs : List UiJob) (jobId : String) : Option UiJob := jobs.find? (·.jobId = jobId)

theorem mapGet_byId (h : OneRowEach jobs) {jobId : String} : mapGet (byId jobs) jobId = rowOf jobs jobId := by
  rw [byId_of_oneRow h, mapGet, List.find?_map, Option.map_map]
  show Option.map id _ = _
  rw [Option.map_id]
  rfl

theorem rowOf_eq (h : OneRowEach jobs) {row : UiJob} (hrow : row ∈ jobs) : rowOf jobs row.jobId = some row :=
  find?_key h hrow

theorem rowOf_some {jobId : String} {row : UiJob} (h : rowOf jobs jobId = some row) : row ∈ jobs ∧ row.jobId = jobId :=
  ⟨List.mem_of_find?_eq_some h, by simpa using List.find?_some h⟩

def sessionRow (previous : List UiJob) (sessionJobIds : List String) (jobId : String) : Option UiJob :=
  if jobId ∈ sessionJobIds then rowOf previous jobId else none

theorem reconcileJobs_eq (h : OneRowEach previous) : reconcileJobs previous serverJobs sessionJobIds =
    (previous.filter fun job => job.jobId ∈ sessionJobIds ∧ job.status ∈ inFlightStatuses ∧
        job.jobId ∉ serverJobs.map (·.jobId)) ++
      serverJobs.map fun job => fromServer (sessionRow previous sessionJobIds job.jobId) job := by
  unfold reconcileJobs
  dsimp only
  congr 1
  · rw [byId_of_oneRow (oneRow_filter h), List.map_map]
    show List.filter _ (List.map id _) = _
    rw [List.map_id, List.filter_filter]
    refine List.filter_congr fun job _ => ?_
    simp only [Bool.decide_and]
    ac_rfl
  · refine List.map_congr_left fun job _ => ?_
    rw [mapGet_byId (oneRow_filter h)]
    congr 1
    unfold rowOf sessionRow
    rw [List.find?_filter]
    split_ifs with hsession
    · refine congrArg (fun p => List.find? p previous) (funext fun row => ?_)
      by_cases hid : row.jobId = job.jobId
      · simp [hid, hsession]
      · simp [hid]
    · rw [List.find?_eq_none]
      rintro row - hrow
      obtain ⟨hmem, hid⟩ : row.jobId ∈ sessionJobIds ∧ row.jobId = job.jobId := by simpa using hrow
      exact hsession (hid ▸ hmem)

theorem fromServer_jobId {session : Option UiJob} {job : ConversionJobResponse} :
    (fromServer session job).jobId = job.jobId := by
  rcases session with _ | row <;> rfl

/-- **A refresh** lists no job twice. -/
theorem oneRow_reconcileJobs (h : OneRowEach previous) (hserver : (serverJobs.map (·.jobId)).Nodup) :
    OneRowEach (reconcileJobs previous serverJobs sessionJobIds) := by
  unfold OneRowEach
  have hids : (serverJobs.map fun job => fromServer (sessionRow previous sessionJobIds job.jobId) job).map (·.jobId) =
      serverJobs.map (·.jobId) := by
    rw [List.map_map]
    exact List.map_congr_left fun job _ => fromServer_jobId
  rw [reconcileJobs_eq h, List.map_append, hids, List.nodup_append]
  refine ⟨oneRow_filter h, hserver, ?_⟩
  rintro id hid id' hid' rfl
  obtain ⟨row, hrow, rfl⟩ := List.mem_map.1 hid
  have hnew : row.jobId ∉ serverJobs.map (·.jobId) := (of_decide_eq_true (List.mem_filter.1 hrow).2).2.2
  exact hnew hid'

end List

/-! ## A session -/

section Session

/-- The states that a job goes through on the server, and the attempt each is of.  A finished job is in flight again only
when it has been retried. -/
structure History where
  status : ℕ → String
  attempt : ℕ → ℕ
  attempt_mono : Monotone attempt
  retried : ∀ {m n}, m ≤ n → status m ∈ finishedStatuses → status n ∈ inFlightStatuses → attempt m < attempt n

variable (readNumber : String → Option ℚ) (history : String → History)

/-- What is shown of a job, and which of its states the status is of. -/
structure Shown where
  state : ℕ
  status : String
  percent : Option ℤ

/-- From one to the other a finished job goes back in flight only if it was retried, and a percentage is neither lost nor
reduced. -/
structure Shown.Forward (job : History) (before after : Shown) : Prop where
  status : before.status ∈ finishedStatuses → after.status ∈ inFlightStatuses →
    job.attempt before.state < job.attempt after.state
  percent : Keeps before.percent after.percent

/-- The rows of a session.  `state` tells which state of a job its row is of, `shown` what was last shown of it. -/
structure Session where
  jobs : List UiJob := []
  sessionJobIds : List String := []
  state : String → ℕ := fun _ => 0
  shown : String → Option Shown := fun _ => none

/-- A change of the list.  Frames, copies of the server and answers to a retry are of a state of the job. -/
inductive Change
  | frame (id : String) (state : ℕ) (evt : JobProgressEvent) (now : String)
  | refresh (copies : List (ConversionJobResponse × ℕ))
  | streamError (id : String)
  | retry (id : String) (state : ℕ) (updated : ConversionJobResponse)

/-- Frames and copies are snapshots of the history of their job; a list of the server has one row for each job. -/
def Change.Snapshots : Change → Prop
  | .frame id state evt _ => evt.status = (history id).status state
  | .refresh copies => (copies.map (·.1.jobId)).Nodup ∧
      ∀ copy ∈ copies, copy.1.status = (history copy.1.jobId).status copy.2
  | _ => True

/-- `setJobs((prev) => prev.map((j) => (j.job_id === id ? f(j) : j)))`. -/
def updateJob (jobs : List UiJob) (id : String) (f : UiJob → UiJob) : List UiJob :=
  jobs.map fun job => if job.jobId = id then f job else job

/-- A copy has the percentage, or is completed and needs none. -/
def ConversionJobResponse.Reaches (copy : ConversionJobResponse) (p : ℤ) : Prop :=
  match asNumeric readNumber copy.progress with
  | some number => p ≤ 0 ∨ (p : ℚ) - 1 / 2 ≤ number
  | none => copy.status = "COMPLETED"

namespace Session

variable (s : Session)

/-- What the session shows of a row. -/
def look (state : String → ℕ) (job : UiJob) : Shown := ⟨state job.jobId, job.status, job.percent readNumber⟩

def showing (jobs : List UiJob) (state : String → ℕ) : Session :=
  { s with
    jobs
    state
    shown := fun id => (rowOf jobs id).map (look readNumber state) <|> s.shown id }

def copyOf (copies : List (ConversionJobResponse × ℕ)) (id : String) : Option (ConversionJobResponse × ℕ) :=
  copies.find? (·.1.jobId = id)

def apply : Change → Session
  | .frame id state evt now =>
    s.showing readNumber (updateJob s.jobs id fun job => onProgress readNumber job evt now)
      (Function.update s.state id state)
  | .refresh copies =>
    s.showing readNumber (reconcileJobs s.jobs (copies.map (·.1)) s.sessionJobIds) fun id =>
      match copyOf copies id with
      | some copy => copy.2
      | none => s.state id
  | .streamError id => s.showing readNumber (updateJob s.jobs id reduceStreamError) s.state
  | .retry id state updated =>
    s.showing readNumber (updateJob s.jobs id (retried updated)) (Function.update s.state id state)

/-- No row stands behind what was last shown of its job, and no row that shows a percentage is gone.  A retry starts
over. -/
def ShowsForward (change : Change) : Prop :=
  match change with
  | .retry _ _ _ => True
  | _ => (∀ job ∈ (s.apply readNumber change).jobs, ∀ before ∈ s.shown job.jobId,
        before.Forward (history job.jobId) (look readNumber (s.apply readNumber change).state job)) ∧
      ∀ job ∈ s.jobs, job.percent readNumber ≠ none → job.jobId ∈ (s.apply readNumber change).jobs.map (·.jobId)

/-- What is in flight is not put over a finished row from later in the history of the job. -/
def NotStale (before : Shown) (state : ℕ) (status : String) : Prop :=
  before.status ∈ finishedStatuses → status ∈ inFlightStatuses → before.state ≤ state

/-- What a copy of the server may say of a job: a row of this session keeps its own percentage, any other one gets that of
the copy. -/
def TimelyCopy (before : Shown) (copy : ConversionJobResponse × ℕ) : Prop :=
  NotStale before copy.2 copy.1.status ∧
    match sessionRow s.jobs s.sessionJobIds copy.1.jobId with
    | some job => ByStatusOnly readNumber job → copy.1.status = "COMPLETED"
    | none => ∀ p ∈ before.percent, copy.1.Reaches readNumber p

/-- What a frame or a list of the server may say when it comes.  A list may leave out a job that shows a percentage only
if it runs and is of this session. -/
def Timely : Change → Prop
  | .frame id state evt _ => ∀ job ∈ s.jobs, job.jobId = id →
      NotStale (look readNumber s.state job) state evt.status ∧
        (ByStatusOnly readNumber job → evt.status = "COMPLETED" ∨
          displayPercent (asNumeric readNumber evt.progress) = some 100)
  | .refresh copies => (∀ copy ∈ copies, ∀ before ∈ s.shown copy.1.jobId, s.TimelyCopy readNumber before copy) ∧
      ∀ job ∈ s.jobs, job.percent readNumber ≠ none →
        job.jobId ∈ copies.map (·.1.jobId) ∨ job.jobId ∈ s.sessionJobIds ∧ job.status ∈ inFlightStatuses
  | _ => True

end Session

variable {readNumber history} {s : Session} {id : String}

/-- A finished status is the one that the job had in the state, and a percentage is one. -/
structure Shown.Valid (job : History) (before : Shown) : Prop where
  status : before.status ∈ finishedStatuses → before.status = job.status before.state
  percent : ∀ p ∈ before.percent, p ≤ 100

/-- Every job has one row, what was last shown of it is what that shows, and all that was shown is of the history. -/
structure Session.Consistent (readNumber : String → Option ℚ) (history : String → History) (s : Session) : Prop where
  oneRow : OneRowEach s.jobs
  shown : ∀ job ∈ s.jobs, s.shown job.jobId = some (Session.look readNumber s.state job)
  valid : ∀ id, ∀ before ∈ s.shown id, before.Valid (history id)

theorem consistent_showing {jobs : List UiJob} {state : String → ℕ} (h : OneRowEach jobs)
    (hold : ∀ id, ∀ before ∈ s.shown id, before.Valid (history id))
    (hnew : ∀ job ∈ jobs, job.status ∈ finishedStatuses → job.status = (history job.jobId).status (state job.jobId)) :
    (s.showing readNumber jobs state).Consistent readNumber history := by
  refine ⟨h, fun job hjob => ?_, fun id before hbefore => ?_⟩
  · show ((rowOf jobs job.jobId).map _ <|> _) = _
    rw [rowOf_eq h hjob]
    rfl
  · have hshown : ((rowOf jobs id).map (Session.look readNumber state) <|> s.shown id) = some before := hbefore
    rcases hrow : rowOf jobs id with _ | job
    · rw [hrow] at hshown
      exact hold id before hshown
    · rw [hrow] at hshown
      obtain rfl := Option.some.inj hshown
      obtain ⟨hjob, rfl⟩ := rowOf_some hrow
      exact ⟨hnew job hjob, fun p hp => shownPercent_le hp⟩

theorem status_of_finished {job : UiJob} (h : s.Consistent readNumber history) (hjob : job ∈ s.jobs)
    (hf : job.status ∈ finishedStatuses) : job.status = (history job.jobId).status (s.state job.jobId) :=
  (h.valid _ _ (h.shown job hjob)).status hf

theorem oneRow_updateJob {jobs : List UiJob} {f : UiJob → UiJob} (hf : ∀ job, (f job).jobId = job.jobId)
    (h : OneRowEach jobs) : OneRowEach (updateJob jobs id f) := by
  have hids : (updateJob jobs id f).map (·.jobId) = jobs.map (·.jobId) := by
    refine map_key fun job => ?_
    split_ifs
    · exact hf job
    · rfl
  unfold OneRowEach
  rw [hids]
  exact h

theorem oneRow_apply {change : Change} (hsnap : change.Snapshots history) (h : OneRowEach s.jobs) :
    OneRowEach (s.apply readNumber change).jobs := by
  cases change with
  | frame id state evt now => exact oneRow_updateJob (fun _ => rfl) h
  | refresh copies =>
    refine oneRow_reconcileJobs h ?_
    rw [List.map_map]
    exact hsnap.1
  | streamError id => exact oneRow_updateJob (fun _ => rfl) h
  | retry id state updated => exact oneRow_updateJob (fun _ => rfl) h

theorem finished_updateJob {f : UiJob → UiJob} {state : ℕ} (h : s.Consistent readNumber history)
    (hid : ∀ job, (f job).jobId = job.jobId)
    (hf : ∀ job, (f job).status ∈ finishedStatuses → (f job).status = (history id).status state) :
    ∀ job ∈ updateJob s.jobs id f, job.status ∈ finishedStatuses →
      job.status = (history job.jobId).status (Function.update s.state id state job.jobId) := by
  intro job' hjob' hfin
  obtain ⟨job, hjob, rfl⟩ := List.mem_map.1 hjob'
  by_cases hjid : job.jobId = id
  · rw [if_pos hjid] at hfin ⊢
    rw [hid, hjid, Function.update_self]
    exact hf job hfin
  · rw [if_neg hjid] at hfin ⊢
    rw [Function.update_of_ne hjid]
    exact status_of_finished h hjob hfin

theorem copyOf_eq {copies : List (ConversionJobResponse × ℕ)} (hone : (copies.map (·.1.jobId)).Nodup)
    {copy : ConversionJobResponse × ℕ} (hcopy : copy ∈ copies) : Session.copyOf copies copy.1.jobId = some copy :=
  @find?_key _ _ _ (fun copy : ConversionJobResponse × ℕ => copy.1.jobId) _ hone _ hcopy

theorem copyOf_none {copies : List (ConversionJobResponse × ℕ)} (h : id ∉ (copies.map (·.1)).map (·.jobId)) :
    Session.copyOf copies id = none := by
  unfold Session.copyOf
  rw [List.find?_eq_none]
  intro copy hcopy hid
  refine h ?_
  rw [List.map_map]
  exact List.mem_map.2 ⟨copy, hcopy, by simpa using hid⟩

theorem mem_refresh {copies : List (ConversionJobResponse × ℕ)} {job : UiJob} (h : OneRowEach s.jobs)
    (hone : (copies.map (·.1.jobId)).Nodup) (hjob : job ∈ (s.apply readNumber (.refresh copies)).jobs) :
    (job ∈ s.jobs ∧ (s.apply readNumber (.refresh copies)).state job.jobId = s.state job.jobId) ∨
      ∃ copy ∈ copies, job = fromServer (sessionRow s.jobs s.sessionJobIds copy.1.jobId) copy.1 ∧
        (s.apply readNumber (.refresh copies)).state copy.1.jobId = copy.2 := by
  have hjobs : (s.apply readNumber (.refresh copies)).jobs = _ := reconcileJobs_eq h
  rw [hjobs, List.mem_append] at hjob
  rcases hjob with hjob | hjob
  · obtain ⟨hmem, hnew⟩ := List.mem_filter.1 hjob
    refine .inl ⟨hmem, ?_⟩
    show (match Session.copyOf copies job.jobId with | some copy => copy.2 | none => s.state job.jobId) = _
    rw [copyOf_none (of_decide_eq_true hnew).2.2]
  · rw [List.map_map] at hjob
    obtain ⟨copy, hcopy, rfl⟩ := List.mem_map.1 hjob
    refine .inr ⟨copy, hcopy, rfl, ?_⟩
    show (match Session.copyOf copies copy.1.jobId with | some copy => copy.2 | none => _) = _
    rw [copyOf_eq hone hcopy]

theorem consistent_apply {change : Change} (hsnap : change.Snapshots history) (h : s.Consistent readNumber history) :
    (s.apply readNumber change).Consistent readNumber history := by
  have hrows : OneRowEach (s.apply readNumber change).jobs := oneRow_apply hsnap h.oneRow
  cases change with
  | frame id state evt now =>
    exact consistent_showing hrows h.valid (finished_updateJob h (fun _ => rfl) fun _ _ => hsnap)
  | refresh copies =>
    refine consistent_showing hrows h.valid fun job hjob hfin => ?_
    rcases @mem_refresh readNumber s copies job h.oneRow hsnap.1 hjob with ⟨hmem, hstate⟩ | ⟨copy, hcopy, rfl, hstate⟩
    · exact (status_of_finished h hmem hfin).trans (congrArg _ hstate.symm)
    · rw [fromServer_jobId]
      have hcopied : (fromServer (sessionRow s.jobs s.sessionJobIds copy.1.jobId) copy.1).status = copy.1.status := by
        rcases sessionRow s.jobs s.sessionJobIds copy.1.jobId with _ | row <;> rfl
      exact hcopied.trans ((hsnap.2 copy hcopy).trans (congrArg _ hstate.symm))
  | streamError id =>
    refine consistent_showing hrows h.valid fun job' hjob' hfin => ?_
    obtain ⟨job, hjob, rfl⟩ := List.mem_map.1 hjob'
    have hsame : (if job.jobId = id then reduceStreamError job else job) = job := by
      split_ifs <;> rfl
    rw [hsame] at hfin ⊢
    exact status_of_finished h hjob hfin
  | retry id state updated =>
    refine consistent_showing hrows h.valid (finished_updateJob h (fun _ => rfl) fun _ hfin => ?_)
    exact absurd hfin (by decide : "PENDING" ∉ finishedStatuses)

/-- In a history that goes on by retries only, going back without one is taking an older state. -/
theorem retried_iff_notStale {before : Shown} {state : ℕ} {status : String} (h : before.Valid (history id))
    (hstatus : status = (history id).status state) :
    (before.status ∈ finishedStatuses → status ∈ inFlightStatuses →
        (history id).attempt before.state < (history id).attempt state) ↔ Session.NotStale before state status := by
  constructor
  · intro hretried hf hi
    by_contra hlt
    exact absurd (hretried hf hi) (not_lt.2 ((history id).attempt_mono (not_le.1 hlt).le))
  · intro hnot hf hi
    have hfin : (history id).status before.state ∈ finishedStatuses := h.status hf ▸ hf
    exact (history id).retried (hnot hf hi) hfin (hstatus ▸ hi)

theorem keeps_iff_reaches {before : Shown} {copy : ConversionJobResponse} {job : History} (h : before.Valid job) :
    Keeps before.percent (shownPercent readNumber copy.status copy.progress) ↔
      ∀ p ∈ before.percent, copy.Reaches readNumber p := by
  refine forall₂_congr fun p hp => ?_
  have hle := h.percent p hp
  unfold ConversionJobResponse.Reaches
  rcases hnumber : asNumeric readNumber copy.progress with _ | number
  · by_cases hdone : copy.status = "COMPLETED"
    · rw [hdone, shownPercent_completed hnumber]
      exact iff_of_true ⟨100, rfl, hle⟩ rfl
    · rw [shownPercent_none hnumber hdone]
      exact iff_of_false (by simp) hdone
  · rw [shownPercent_of_number hnumber]
    have hfloor : p ≤ ⌊number + 1 / 2⌋ ↔ (p : ℚ) - 1 / 2 ≤ number := by rw [Int.le_floor, sub_le_iff_le_add]
    simp only [Option.mem_some_iff, exists_eq_left', ← hfloor, wholePercent]
    omega

theorem forward_refl {before : Shown} {job : History} : before.Forward job before :=
  ⟨fun hf hi => absurd hi (finished_not_inFlight hf), keeps_refl⟩

/-- A row that is as it was stands where it stood. -/
theorem forward_same {state : String → ℕ} {job : UiJob} {before : Shown} (h : s.Consistent readNumber history)
    (hjob : job ∈ s.jobs) (hstate : state job.jobId = s.state job.jobId) (hbefore : before ∈ s.shown job.jobId) :
    before.Forward (history job.jobId) (Session.look readNumber state job) := by
  obtain rfl := Option.some.inj ((h.shown job hjob).symm.trans hbefore)
  unfold Session.look
  rw [hstate]
  exact forward_refl

theorem mem_updateJob {jobs : List UiJob} (f : UiJob → UiJob) (hf : ∀ job, (f job).jobId = job.jobId) {job : UiJob}
    (hjob : job ∈ jobs) : job.jobId ∈ (updateJob jobs id f).map (·.jobId) := by
  refine List.mem_map.2 ⟨_, List.mem_map_of_mem hjob, ?_⟩
  split_ifs
  · exact hf job
  · rfl

/-- **A frame** shows its job forward exactly if it is timely. -/
theorem forward_frame {state : ℕ} {evt : JobProgressEvent} {now : String} (h : s.Consistent readNumber history)
    (hevt : evt.status = (history id).status state) :
    s.ShowsForward readNumber history (.frame id state evt now) ↔ s.Timely readNumber (.frame id state evt now) := by
  have hrow : ∀ job ∈ s.jobs, job.jobId = id →
      ((Session.look readNumber s.state job).Forward (history id) (Session.look readNumber
          (Function.update s.state id state) (onProgress readNumber job evt now)) ↔
        Session.NotStale (Session.look readNumber s.state job) state evt.status ∧
          (ByStatusOnly readNumber job → evt.status = "COMPLETED" ∨
            displayPercent (asNumeric readNumber evt.progress) = some 100)) := by
    rintro job hjob rfl
    have hkeeps : Keeps (job.percent readNumber) ((onProgress readNumber job evt now).percent readNumber) ↔ _ :=
      keeps_onProgress
    have hstatus := retried_iff_notStale (h.valid _ _ (h.shown job hjob)) hevt
    rw [← hkeeps, ← hstatus]
    have hstate : (Session.look readNumber (Function.update s.state job.jobId state)
        (onProgress readNumber job evt now)).state = state := Function.update_self ..
    constructor
    · rintro ⟨hretried, hpercent⟩
      rw [hstate] at hretried
      exact ⟨hretried, hpercent⟩
    · rintro ⟨hretried, hpercent⟩
      refine ⟨?_, hpercent⟩
      rw [hstate]
      exact hretried
  constructor
  · rintro ⟨hforward, -⟩ job hjob rfl
    exact (hrow job hjob rfl).1 (hforward _ (List.mem_map.2 ⟨job, hjob, if_pos rfl⟩) _ (h.shown job hjob))
  · intro htimely
    refine ⟨fun job' hjob' before hbefore => ?_,
      fun job hjob _ => mem_updateJob (onProgress readNumber · evt now) (fun _ => rfl) hjob⟩
    obtain ⟨job, hjob, rfl⟩ := List.mem_map.1 hjob'
    by_cases hid : job.jobId = id
    · rw [if_pos hid] at hbefore ⊢
      obtain rfl := Option.some.inj ((h.shown job hjob).symm.trans hbefore)
      subst hid
      exact (hrow job hjob rfl).2 (htimely job hjob rfl)
    · rw [if_neg hid] at hbefore ⊢
      exact forward_same h hjob (Function.update_of_ne hid ..) hbefore

theorem forward_copy {state : String → ℕ} {before : Shown} {copy : ConversionJobResponse × ℕ}
    (hstate : state copy.1.jobId = copy.2) (hcopy : copy.1.status = (history copy.1.jobId).status copy.2)
    (h : s.Consistent readNumber history) (hbefore : before ∈ s.shown copy.1.jobId) :
    before.Forward (history copy.1.jobId)
        (Session.look readNumber state (fromServer (sessionRow s.jobs s.sessionJobIds copy.1.jobId) copy.1)) ↔
      s.TimelyCopy readNumber before copy := by
  have hvalid := h.valid _ _ hbefore
  have hlook : Session.look readNumber state (fromServer (sessionRow s.jobs s.sessionJobIds copy.1.jobId) copy.1) =
      ⟨copy.2, copy.1.status,
        (fromServer (sessionRow s.jobs s.sessionJobIds copy.1.jobId) copy.1).percent readNumber⟩ := by
    unfold Session.look
    rw [fromServer_jobId, hstate]
    rcases sessionRow s.jobs s.sessionJobIds copy.1.jobId with _ | row <;> rfl
  have hstatus := retried_iff_notStale hvalid hcopy
  have hpercent : Keeps before.percent
      ((fromServer (sessionRow s.jobs s.sessionJobIds copy.1.jobId) copy.1).percent readNumber) ↔
        match sessionRow s.jobs s.sessionJobIds copy.1.jobId with
        | some job => ByStatusOnly readNumber job → copy.1.status = "COMPLETED"
        | none => ∀ p ∈ before.percent, copy.1.Reaches readNumber p := by
    rcases hsession : sessionRow s.jobs s.sessionJobIds copy.1.jobId with _ | job
    · exact keeps_iff_reaches hvalid
    · -- what was shown last is this row
      obtain ⟨hjob, hid⟩ : job ∈ s.jobs ∧ job.jobId = copy.1.jobId := by
        unfold sessionRow at hsession
        split_ifs at hsession
        exact rowOf_some hsession
      have hshown := h.shown job hjob
      rw [hid] at hshown
      obtain rfl := Option.some.inj (hshown.symm.trans hbefore)
      exact keeps_fromServer
  rw [hlook]
  unfold Session.TimelyCopy
  rw [← hstatus, ← hpercent]
  exact ⟨fun hforward => ⟨hforward.1, hforward.2⟩, fun hboth => ⟨hboth.1, hboth.2⟩⟩

theorem listed_refresh {copies : List (ConversionJobResponse × ℕ)} (h : OneRowEach s.jobs) {job : UiJob}
    (hjob : job ∈ s.jobs) : job.jobId ∈ (s.apply readNumber (.refresh copies)).jobs.map (·.jobId) ↔
      job.jobId ∈ copies.map (·.1.jobId) ∨ job.jobId ∈ s.sessionJobIds ∧ job.status ∈ inFlightStatuses := by
  have hjobs : (s.apply readNumber (.refresh copies)).jobs = _ := reconcileJobs_eq h
  have hids : ((copies.map (·.1)).map fun copy => fromServer (sessionRow s.jobs s.sessionJobIds copy.jobId) copy).map
      (·.jobId) = copies.map (·.1.jobId) := by
    rw [List.map_map, List.map_map]
    exact List.map_congr_left fun copy _ => fromServer_jobId
  rw [hjobs, List.map_append, hids, List.mem_append, or_comm]
  by_cases hcopied : job.jobId ∈ copies.map (·.1.jobId)
  · exact iff_of_true (.inl hcopied) (.inl hcopied)
  refine or_congr_right ⟨fun hkept => ?_, fun hown => ?_⟩
  · obtain ⟨row, hrow, hid⟩ := List.mem_map.1 hkept
    obtain ⟨hmem, hown⟩ := List.mem_filter.1 hrow
    obtain rfl : row = job := List.inj_on_of_nodup_map h hmem hjob hid
    exact ⟨(of_decide_eq_true hown).1, (of_decide_eq_true hown).2.1⟩
  · refine List.mem_map_of_mem (List.mem_filter.2 ⟨hjob, decide_eq_true ⟨hown.1, hown.2, ?_⟩⟩)
    rw [List.map_map]
    exact hcopied

/-- **A refresh** shows every job forward exactly if its list is timely. -/
theorem forward_refresh {copies : List (ConversionJobResponse × ℕ)} (hsnap : (Change.refresh copies).Snapshots history)
    (h : s.Consistent readNumber history) :
    s.ShowsForward readNumber history (.refresh copies) ↔ s.Timely readNumber (.refresh copies) := by
  have hjobs : (s.apply readNumber (.refresh copies)).jobs = _ := reconcileJobs_eq h.oneRow
  refine and_congr ⟨fun hforward copy hcopy before hbefore => ?_, fun htimely job hjob before hbefore => ?_⟩
    (forall₂_congr fun job hjob => imp_congr_right fun _ => listed_refresh h.oneRow hjob)
  · have hrow : fromServer (sessionRow s.jobs s.sessionJobIds copy.1.jobId) copy.1 ∈
        (s.apply readNumber (.refresh copies)).jobs := by
      rw [hjobs]
      exact List.mem_append_right _ (List.mem_map.2 ⟨copy.1, List.mem_map_of_mem hcopy, rfl⟩)
    have hstate : (s.apply readNumber (.refresh copies)).state copy.1.jobId = copy.2 := by
      show (match Session.copyOf copies copy.1.jobId with | some copy => copy.2 | none => _) = _
      rw [copyOf_eq hsnap.1 hcopy]
    have hcopied := hforward _ hrow before (by rw [fromServer_jobId]; exact hbefore)
    rw [fromServer_jobId] at hcopied
    exact (forward_copy hstate (hsnap.2 copy hcopy) h hbefore).1 hcopied
  · rcases mem_refresh h.oneRow hsnap.1 hjob with ⟨hmem, hstate⟩ | ⟨copy, hcopy, rfl, hstate⟩
    · exact forward_same h hmem hstate hbefore
    · rw [fromServer_jobId] at hbefore ⊢
      exact (forward_copy hstate (hsnap.2 copy hcopy) h hbefore).2 (htimely copy hcopy before hbefore)

theorem forward_streamError (h : s.Consistent readNumber history) :
    s.ShowsForward readNumber history (.streamError id) := by
  refine ⟨fun job' hjob' before hbefore => ?_, fun job hjob _ => mem_updateJob _ (fun _ => rfl) hjob⟩
  obtain ⟨job, hjob, rfl⟩ := List.mem_map.1 hjob'
  have hsame : (if job.jobId = id then reduceStreamError job else job) = job := by
    split_ifs <;> rfl
  rw [hsame] at hbefore ⊢
  exact forward_same h hjob rfl hbefore

theorem forward_iff {change : Change} (hsnap : change.Snapshots history) (h : s.Consistent readNumber history) :
    s.ShowsForward readNumber history change ↔ s.Timely readNumber change := by
  cases change with
  | frame id state evt now => exact forward_frame h hsnap
  | refresh copies => exact forward_refresh hsnap h
  | streamError id => exact iff_of_true (forward_streamError h) trivial
  | retry id state updated => exact iff_of_true trivial trivial

/-- `φ` holds of every change, at the session it finds. -/
def Session.Along (readNumber : String → Option ℚ) (φ : Session → Change → Prop) : Session → List Change → Prop
  | _, [] => True
  | s, change :: changes => φ s change ∧ Session.Along readNumber φ (s.apply readNumber change) changes

/-- **A session**: along every sequence of frames, refreshes, broken streams and retries each job has one row, no row
falls back behind what was shown of its job and no percentage is lost, exactly if every frame and every list of the
server is timely. -/
theorem shown_forward_iff (h : s.Consistent readNumber history) {changes : List Change}
    (hsnap : ∀ change ∈ changes, change.Snapshots history) :
    Session.Along readNumber (fun s change => OneRowEach (s.apply readNumber change).jobs ∧
        s.ShowsForward readNumber history change) s changes ↔
      Session.Along readNumber (fun s change => s.Timely readNumber change) s changes := by
  induction changes generalizing s with
  | nil => exact Iff.rfl
  | cons change changes ih =>
    have hchange := hsnap change List.mem_cons_self
    have hrest := ih (consistent_apply hchange h) fun other hother => hsnap other (List.mem_cons_of_mem _ hother)
    have hstep : OneRowEach (s.apply readNumber change).jobs ∧ s.ShowsForward readNumber history change ↔
        s.Timely readNumber change := by
      rw [forward_iff hchange h]
      exact and_iff_right (oneRow_apply hchange h.oneRow)
    exact and_congr hstep hrest

/-! ### Concrete sessions -/

instance decidableNotStale {before : Shown} {state : ℕ} {status : String} :
    Decidable (Session.NotStale before state status) := by
  unfold Session.NotStale
  infer_instance

instance decidableReaches {copy : ConversionJobResponse} {p : ℤ} : Decidable (copy.Reaches readNumber p) := by
  unfold ConversionJobResponse.Reaches
  split <;> infer_instance

instance decidableTimelyCopy {before : Shown} {copy : ConversionJobResponse × ℕ} :
    Decidable (s.TimelyCopy readNumber before copy) := by
  unfold Session.TimelyCopy
  split <;> infer_instance

instance decidableTimely (s : Session) : ∀ change, Decidable (s.Timely readNumber change)
  | .frame _ _ _ _ => inferInstanceAs (Decidable (∀ job ∈ s.jobs, _))
  | .refresh copies => inferInstanceAs (Decidable ((∀ copy ∈ copies, ∀ before ∈ s.shown copy.1.jobId, _) ∧ _))
  | .streamError _ | .retry _ _ _ => isTrue trivial

instance decidableAlong {φ : Session → Change → Prop} [h : ∀ s change, Decidable (φ s change)] :
    ∀ (s : Session) (changes : List Change), Decidable (Session.Along readNumber φ s changes)
  | _, [] => isTrue trivial
  | s, change :: changes => @instDecidableAnd _ _ (h s change) (decidableAlong _ changes)

/-- A job that runs and then is completed for good. -/
def onceCompleted : History where
  status n := if n = 0 then "PROCESSING" else "COMPLETED"
  attempt _ := 0
  attempt_mono _ _ _ := le_rfl
  retried := by
    intro m n hle hf hi
    have hm : m ≠ 0 := by
      rintro rfl
      exact absurd hf (by decide)
    rw [if_neg (by omega : n ≠ 0)] at hi
    exact absurd hi (by decide)

def running : Session :=
  Session.showing (fun _ => none) { sessionJobIds := ["j"] } [{ jobId := "j", status := "PROCESSING" }] fun _ => 0

theorem consistent_running : running.Consistent (fun _ => none) fun _ => onceCompleted := by
  refine consistent_showing (List.nodup_singleton _) (fun _ _ h => by cases h) fun job hjob _ => ?_
  rw [List.mem_singleton.1 hjob]
  rfl

def frameOf (state : ℕ) (progress : Option ℚ) : Change :=
  .frame "j" state { jobId := "j", status := onceCompleted.status state, progress := progress.map .number } ""

def copyIs (state : ℕ) : Change := .refresh [({ jobId := "j", status := onceCompleted.status state }, state)]

theorem snapshots_frameOf {state : ℕ} {progress : Option ℚ} :
    (frameOf state progress).Snapshots fun _ => onceCompleted := rfl

theorem snapshots_copyIs {state : ℕ} : (copyIs state).Snapshots fun _ => onceCompleted :=
  ⟨List.nodup_singleton _, by simp⟩

/-- It gets on, a list is not up to it yet, a refresh confirms it, and it completes. -/
theorem shown_forward_iff_running :
    Session.Along (fun _ => none) (fun s change => OneRowEach (s.apply (fun _ => none) change).jobs ∧
        s.ShowsForward (fun _ => none) (fun _ => onceCompleted) change) running
      [frameOf 0 (some 50), .refresh [], copyIs 0, frameOf 1 none, copyIs 1] := by
  refine (shown_forward_iff consistent_running ?_).2 ?_
  · simp only [List.forall_mem_cons]
    exact ⟨snapshots_frameOf, ⟨List.nodup_nil, by simp⟩, snapshots_copyIs, snapshots_frameOf, snapshots_copyIs, by simp⟩
  · decide +kernel

/-- A list that was asked for before the job completed arrives after its last frame: the row is running again. -/
theorem completed_runs_again : ¬ ∀ (readNumber : String → Option ℚ) (history : String → History) (s : Session)
    (changes : List Change), s.Consistent readNumber history → (∀ change ∈ changes, change.Snapshots history) →
      Session.Along readNumber (fun s change => OneRowEach (s.apply readNumber change).jobs ∧
        s.ShowsForward readNumber history change) s changes := by
  intro h
  have hsnap : ∀ change ∈ [frameOf 1 none, copyIs 0], change.Snapshots fun _ => onceCompleted := by
    simp only [List.forall_mem_cons]
    exact ⟨snapshots_frameOf, snapshots_copyIs, by simp⟩
  have hall := h (fun _ => none) _ running _ consistent_running hsnap
  have hcompleted := consistent_apply (hsnap _ List.mem_cons_self) consistent_running
  have htimely := (forward_iff snapshots_copyIs hcompleted).1 hall.2.1.2
  exact absurd htimely (by decide +kernel)

end Session

end Transform.Web
