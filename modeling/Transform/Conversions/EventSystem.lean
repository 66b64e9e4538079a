import Transform.Conversions.PendingSystem
import Transform.Queues.JobEvents

/-!
# Conversions.EventSystem — the attempts of a job and the readers of its events

Requests, workers and readers of the event stream, interleaved call by call.  A retry that resets its row begins a new
attempt of the job; a worker processes the attempt its message was published for, and every event it publishes
belongs to that attempt.

* `ends_with_latest_iff`: a reader opened in the latest attempt ends with an event of that attempt exactly if the
  earliest terminal event of the job that the stream held at its last read is of that attempt.
-/

namespace Transform.Conversions

open Lib Billing Worker Queues

/-! ## The system -/

/-- Who runs: a request, a worker with the attempt it was delivered, or a reader with the attempt it was opened in. -/
inductive EventParty
  | request (req : Request)
  | worker (job : ConversionJob) (attempt : ℕ)
  | subscriber (jobId : String) (opened : ℕ)

def EventParty.attempt : EventParty → ℕ
  | .worker _ attempt => attempt
  | _ => 0

/-- An event in the stream, with the attempt whose processing published it. -/
structure EventEntry where
  fields : Fields
  attempt : ℕ

def EventEntry.ends (jobId : String) (e : EventEntry) : Bool := isTerminalOf jobId e.fields

/-- The table, the messages with their attempts, the attempt each job is in, and the event stream.  `earliest` is, for
each reader, the first terminal event of its job that the stream held at its last read; `yielded` is what it was last
given. -/
structure EventWorld where
  rows : JobRows
  queued : List (Fields × ℕ) := []
  attempt : String → ℕ := fun _ => 0
  stream : Trimmed EventEntry := {}
  earliest : ℕ → Option EventEntry := fun _ => none
  yielded : ℕ → Option EventEntry := fun _ => none

namespace EventWorld

/-- An UPDATE took effect: that of a retry begins the next attempt of the row's job. -/
def write (w : EventWorld) (job : ConversionJob) : EventParty → EventWorld
  | .request (.retry _ _ _) =>
    { w with
      rows := w.rows.update job
      attempt := if (w.rows.get job.jobId).isSome then
        Function.update w.attempt job.jobId (w.attempt job.jobId + 1) else w.attempt }
  | _ => { w with rows := w.rows.update job }

/-- A reader was answered what the stream held. -/
def noteRead (w : EventWorld) (i : ℕ) : EventParty → EventWorld
  | .subscriber jobId _ =>
    { w with earliest := Function.update w.earliest i (w.stream.content.find? (·.ends jobId)) }
  | _ => w

/-- What an exchange does. -/
def apply (slack : ℕ → ℕ) (w : EventWorld) (i : ℕ) (party : EventParty) : Event EventSig → EventWorld
  | ⟨.job (.insertJob row), _, true, _⟩ => { w with rows := w.rows.insert row }
  | ⟨.job (.updateJob job), _, true, _⟩ => w.write job party
  | ⟨.job (.publishJob _ message), _, true, _⟩ =>
    { w with queued := (message, w.attempt ((message.lookup "job_id").getD "")) :: w.queued }
  | ⟨.xadd _ fields maxlen, _, true, _⟩ => { w with stream := w.stream.push maxlen slack ⟨fields, party.attempt⟩ }
  | ⟨.xread _ _ _ _, .ok _, _, _⟩ => w.noteRead i party
  | ⟨.yield messageId _, .ok _, _, _⟩ =>
    { w with yielded := Function.update w.yielded i (w.stream.entry messageId) }
  | _ => w

/-- A row is read as it stands, ids are a primary key, and a read returns what the stream holds after its cursor. -/
def Allowed (w : EventWorld) : Event EventSig → Prop
  | ⟨.job (.getJob jobId), .ok row, _, _⟩ => row = w.rows.get jobId
  | ⟨.job (.insertJob row), _, took, _⟩ => took → w.rows.get row.jobId = none
  | ⟨.xread _ lastId count _, .ok page, _, _⟩ =>
    page = (w.stream.read lastId count).map fun e => (e.1, e.2.fields)
  | _ => True

instance decidableAllowed (w : EventWorld) (ev : Event EventSig) : Decidable (w.Allowed ev) := by
  unfold Allowed
  split <;> infer_instance

end EventWorld

/-- Requests, workers with any message that was ever published, and readers, over one event stream. -/
def eventSystem (ctx : ServiceContext) (slack : ℕ → ℕ) : Sys EventSig where
  World := EventWorld
  Tag := EventParty
  spawn w _ party p w' := w' = w ∧
    ((∃ req : Request, party = .request req ∧ p = withEvents ctx.streamPrefix (req.program ctx)) ∨
      (∃ wctx periodKey m attempt job, (m, attempt) ∈ w.queued ∧ buildJob m = .ok job ∧
        party = .worker job attempt ∧ p = withEvents ctx.streamPrefix (thread (processJob wctx periodKey job))) ∨
      ∃ jobId rounds, party = .subscriber jobId (w.attempt jobId) ∧
        p = thread (subscribe ctx.streamPrefix jobId rounds))
  Allowed w _ _ ev := w.Allowed ev
  apply := EventWorld.apply slack

section Statements

variable {ctx : ServiceContext} {slack : ℕ → ℕ}

/-- A reader that ends, with no retry since it was opened, was last given a terminal event of the latest attempt. -/
def EndsWithLatest (c : (eventSystem ctx slack).Config) :
    (eventSystem ctx slack).Label → (eventSystem ctx slack).Config → Prop
  | .act i (.subscriber jobId opened) ⟨.stopIteration, _, _, _⟩, _ => EventWorld.attempt c.world jobId = opened →
      ∃ e ∈ EventWorld.yielded c.world i, e.ends jobId ∧ e.attempt = EventWorld.attempt c.world jobId
  | _, _ => True

instance decidableEndsWithLatest (c : (eventSystem ctx slack).Config) (l : (eventSystem ctx slack).Label)
    (c' : (eventSystem ctx slack).Config) : Decidable (EndsWithLatest c l c') := by
  unfold EndsWithLatest
  split <;> infer_instance

/-- For a reader that ends, with no retry since it was opened, the earliest terminal event of its job that the stream
held at its last read is of the latest attempt. -/
def EarliestIsLatest (c : (eventSystem ctx slack).Config) :
    (eventSystem ctx slack).Label → (eventSystem ctx slack).Config → Prop
  | .act i (.subscriber jobId opened) ⟨.stopIteration, _, _, _⟩, _ => EventWorld.attempt c.world jobId = opened →
      ∀ e ∈ EventWorld.earliest c.world i, e.attempt = EventWorld.attempt c.world jobId
  | _, _ => True

end Statements

/-! ## The invariant -/

section Invariant

variable {ctx : ServiceContext} {slack : ℕ → ℕ} {w w' : EventWorld} {i j : ℕ} {jobId : String} {g : Reading}

/-- What a reader has read is in the stream, and while it held no terminal event of the job, the stream holds none up
to the cursor. -/
structure ReadsStream (w : EventWorld) (i : ℕ) (jobId : String) (g : Reading) : Prop where
  page : ∀ id fields, (id, fields) ∈ g.page → ∃ n e, id = entryId n ∧ w.stream.log[n]? = some e ∧ e.fields = fields
  cursor : firstTerminal jobId g.page = none →
    ∃ n, w.stream.At g.cursor n ∧ w.stream.NoneBefore (·.ends jobId) n
  earliest : ∀ id fields, firstTerminal jobId g.page = some (id, fields) →
    ∃ n e, id = entryId n ∧ w.stream.log[n]? = some e ∧ e.fields = fields ∧ w.earliest i = some e
  yielded : ∀ id fields, g.last = some (id, fields) →
    ∃ n e, id = entryId n ∧ w.stream.log[n]? = some e ∧ w.yielded i = some e

/-- A reader keeps to what it has read. -/
def EventThread (w : EventWorld) (i : ℕ) : EventParty → Proc EventSig Unit → Prop
  | .subscriber jobId _, p =>
    ∃ g, wp (readingMonitor jobId) p (fun _ _ => True) g ∧ ReadsStream w i jobId g
  | _, _ => True

/-- What another party does to the world of a reader: the stream is appended to and trimmed, at most. -/
structure Extends (slack : ℕ → ℕ) (w w' : EventWorld) (i : ℕ) : Prop where
  stream : w'.stream = w.stream ∨ ∃ maxlen e, w'.stream = w.stream.push maxlen slack e
  earliest : w'.earliest i = w.earliest i
  yielded : w'.yielded i = w.yielded i

theorem extends_refl : Extends slack w w i := ⟨.inl rfl, rfl, rfl⟩

theorem readsStream_of_extends (hR : ReadsStream w i jobId g) (h : Extends slack w w' i) :
    ReadsStream w' i jobId g := by
  have keep : ∀ {n : ℕ} {e : EventEntry}, w.stream.log[n]? = some e → w'.stream.log[n]? = some e := by
    intro n e he
    rcases h.stream with hs | ⟨maxlen, new, hs⟩
    · rw [hs, he]
    · rw [hs]
      exact Trimmed.getElem?_push he
  refine ⟨fun id fields hmem => ?_, fun hnone => ?_, fun id fields hfirst => ?_, fun id fields hlast => ?_⟩
  · obtain ⟨n, e, hid, he, hf⟩ := hR.page id fields hmem
    exact ⟨n, e, hid, keep he, hf⟩
  · obtain ⟨n, hat, hbefore⟩ := hR.cursor hnone
    rcases h.stream with hs | ⟨maxlen, new, hs⟩
    · exact ⟨n, by rwa [hs], by rwa [hs]⟩
    · exact ⟨n, by rw [hs]; exact Trimmed.at_push hat,
        by rw [hs]; exact Trimmed.noneBefore_push (Trimmed.le_of_at hat) hbefore⟩
  · obtain ⟨n, e, hid, he, hf, hear⟩ := hR.earliest id fields hfirst
    exact ⟨n, e, hid, keep he, hf, by rw [h.earliest, hear]⟩
  · obtain ⟨n, e, hid, he, hy⟩ := hR.yielded id fields hlast
    exact ⟨n, e, hid, keep he, by rw [h.yielded, hy]⟩

/-- An exchange of thread `j` extends the world of reader `i`. -/
theorem extends_apply {party : EventParty} {ev : Event EventSig} (hji : i ≠ j) :
    Extends slack w (w.apply slack j party ev) i := by
  unfold EventWorld.apply
  split
  · exact ⟨.inl rfl, rfl, rfl⟩
  · rcases party with req | ⟨job, n⟩ | ⟨id, n⟩
    · cases req <;> exact ⟨.inl rfl, rfl, rfl⟩
    · exact ⟨.inl rfl, rfl, rfl⟩
    · exact ⟨.inl rfl, rfl, rfl⟩
  · exact ⟨.inl rfl, rfl, rfl⟩
  · exact ⟨.inr ⟨_, _, rfl⟩, rfl, rfl⟩
  · rcases party with req | ⟨job, n⟩ | ⟨id, n⟩
    · exact extends_refl
    · exact extends_refl
    · exact ⟨.inl rfl, by simp [EventWorld.noteRead, Function.update_of_ne hji], rfl⟩
  · exact ⟨.inl rfl, rfl, by simp [Function.update_of_ne hji]⟩
  · exact extends_refl

theorem readsStream_of_read (opened : ℕ) {lastId : String} {count : ℕ} {page : List (String × Fields)}
    (hR : ReadsStream w i jobId g) (hlast : lastId = g.cursor) (hnone : firstTerminal jobId g.page = none)
    (hpage : page = (w.stream.read lastId count).map fun e => (e.1, e.2.fields)) :
    ReadsStream (w.noteRead i (.subscriber jobId opened)) i jobId
      { g with cursor := Trimmed.advance g.cursor page, page } := by
  obtain ⟨n, hat, hbefore⟩ := hR.cursor hnone
  rw [← hlast] at hat
  have hadvance : Trimmed.advance lastId page = Trimmed.advance lastId (w.stream.read lastId count) := by
    unfold Trimmed.advance
    rw [hpage, List.getLast?_map]
    rcases (w.stream.read lastId count).getLast? with _ | e <;> rfl
  have hfind : firstTerminal jobId page =
      ((w.stream.read lastId count).find? fun e => e.2.ends jobId).map fun e => (e.1, e.2.fields) := by
    rw [hpage, firstTerminal, List.find?_map]
    rfl
  refine ⟨fun id fields hmem => ?_, fun hnone' => ?_, fun id fields hfirst => ?_, hR.yielded⟩
  · rw [hpage] at hmem
    obtain ⟨⟨id', e⟩, hread, heq⟩ := List.mem_map.1 hmem
    cases heq
    obtain ⟨m, hid, he⟩ := Trimmed.mem_read hat hread
    exact ⟨m, e, hid, he, rfl⟩
  · rw [hfind, Option.map_eq_none_iff] at hnone'
    obtain ⟨n', hat', hbefore'⟩ := Trimmed.at_advance hat hbefore hnone'
    refine ⟨n', ?_, hbefore'⟩
    rw [← hlast, hadvance]
    exact hat'
  · rw [hfind] at hfirst
    obtain ⟨⟨id', e⟩, hread, heq⟩ := Option.map_eq_some_iff.1 hfirst
    cases heq
    obtain ⟨m, hid, he⟩ := Trimmed.mem_read hat (List.mem_of_find?_eq_some hread)
    refine ⟨m, e, hid, he, rfl, ?_⟩
    have hcontent := Trimmed.find?_content_of_read hat hbefore hread
    simp only [EventWorld.noteRead, Function.update_self]
    exact hcontent

/-- An exchange of a reader. -/
theorem readsStream_apply {opened : ℕ} {op : EventOp} {out : Except PyError op.Ans} {took : Bool}
    {h : ∀ a, out = .ok a → took = true} (hR : ReadsStream w i jobId g) (hpre : ReadingPermitted jobId g op)
    (hall : w.Allowed ⟨op, out, took, h⟩) :
    ReadsStream (w.apply slack i (.subscriber jobId opened) ⟨op, out, took, h⟩) i jobId
      (readingStep g ⟨op, out, took, h⟩) := by
  cases op with
  | xread stream lastId count block =>
    rcases out with e | page
    · exact hR
    · exact readsStream_of_read opened hR hpre.1 hpre.2 hall
  | yield messageId fields =>
    rcases out with e | u
    · exact hR
    · refine ⟨hR.page, hR.cursor, hR.earliest, fun id fields' hlast => ?_⟩
      cases hlast
      obtain ⟨n, e, hid, he, -⟩ := hR.page messageId fields hpre
      refine ⟨n, e, hid, he, ?_⟩
      simp only [EventWorld.apply, Function.update_self, hid]
      exact Trimmed.entry_eq he
  | sleep milliseconds => exact hR
  | stopIteration => exact hR
  | job op => exact hpre.elim
  | xadd stream fields maxlen => exact hpre.elim

theorem event_preserved : (eventSystem ctx slack).Preserved (fun _ => True) EventThread (fun _ _ _ _ => True) where
  start_world := fun _ _ => trivial
  start_thread := by
    rintro w w' i party p - ⟨rfl, ⟨req, rfl, -⟩ | ⟨wctx, periodKey, m, n, job, -, -, rfl, -⟩ | ⟨jobId, rounds, rfl, rfl⟩⟩
    · trivial
    · trivial
    · refine ⟨{}, subscribe_spec, fun id fields h => (by cases h), fun _ => ⟨0, .inl ⟨rfl, rfl⟩, ?_⟩,
        fun id fields h => (by cases h), fun id fields h => (by cases h)⟩
      exact fun m hm => absurd hm (Nat.not_lt_zero m)
  start_other := by
    rintro w w' i party p - ⟨rfl, -⟩ j party' q - hT
    exact hT
  act_world := fun _ _ _ _ => trivial
  act_thread := by
    rintro c i party op k out took h - hT hall -
    rcases party with req | ⟨job, n⟩ | ⟨jobId, opened⟩
    · trivial
    · trivial
    · obtain ⟨g, hwp, hR⟩ := hT
      exact ⟨readingStep g ⟨op, out, took, h⟩, hwp.2 out took h trivial, readsStream_apply hR hwp.1 hall⟩
  act_other := by
    rintro c i party op k out took h - - - - j party' q hji - hT
    rcases party' with req | ⟨job, n⟩ | ⟨jobId, opened⟩
    · trivial
    · trivial
    · obtain ⟨g, hwp, hR⟩ := hT
      exact ⟨g, hwp, readsStream_of_extends hR (extends_apply hji)⟩

theorem yielded_eq_earliest (hR : ReadsStream w i jobId g) (hpre : ReadingPermitted jobId g .stopIteration) :
    ∃ e, w.yielded i = some e ∧ w.earliest i = some e ∧ e.ends jobId := by
  obtain ⟨⟨id, fields⟩, hfirst, hlast⟩ := hpre
  obtain ⟨n, e, hid, he, hf, hear⟩ := hR.earliest id fields hfirst
  obtain ⟨n', e', hid', he', hy⟩ := hR.yielded id fields hlast
  obtain rfl : n = n' := entryId_injective (hid.symm.trans hid')
  obtain rfl : e = e' := Option.some.inj (he.symm.trans he')
  refine ⟨e, hy, hear, ?_⟩
  have hends := List.find?_some hfirst
  rw [EventEntry.ends, hf]
  exact hends

end Invariant

/-! ## Runs -/

section Runs

variable {ctx : ServiceContext} {slack : ℕ → ℕ}

/-- **Events and attempts**: along every run, every reader that ends, its job not retried since it was opened, ends
with a terminal event of the latest attempt, exactly if the earliest terminal event of the job that the stream held at
the reader's last read is one of the latest attempt. -/
theorem ends_with_latest_iff {c : (eventSystem ctx slack).Config}
    {tr : List ((eventSystem ctx slack).Label × (eventSystem ctx slack).Config)} (hc : ∀ i, c.threads i = none)
    (hs : (eventSystem ctx slack).Steps c tr) : Along EndsWithLatest c tr ↔ Along EarliestIsLatest c tr := by
  have hI : (eventSystem ctx slack).Inv (fun _ => True) EventThread c := by
    refine ⟨trivial, fun i party p h => ?_⟩
    rw [hc i] at h
    cases h
  refine along_congr (fun c l c' hI hst => inv_step event_preserved hI hst (by cases l <;> trivial))
    (fun c l c' hI hst => ?_) hI hs
  cases hst with
  | @start i party p w hfree hspawn => exact Iff.rfl
  | @exit i => exact Iff.rfl
  | @act i party op k hrun out took h hall =>
    rcases party with req | ⟨job, n⟩ | ⟨jobId, opened⟩
    · exact Iff.rfl
    · exact Iff.rfl
    cases op with
    | stopIteration =>
      obtain ⟨g, hwp, hR⟩ := hI.2 i _ _ hrun
      obtain ⟨e, hy, hear, hends⟩ := yielded_eq_earliest hR hwp.1
      constructor
      · rintro hlatest hopened e' he'
        obtain rfl : e = e' := Option.some.inj (hear.symm.trans he')
        obtain ⟨e', he', -, hatt⟩ := hlatest hopened
        obtain rfl : e = e' := Option.some.inj (hy.symm.trans he')
        exact hatt
      · exact fun hlatest hopened => ⟨e, hy, hends, hlatest hopened e hear⟩
    | _ => exact Iff.rfl

/-! ## A concrete run -/

def eventDriver : (eventSystem ctx slack).Driver where
  reply
    | w, .job (.getJob jobId) => .ok (JobRows.get (EventWorld.rows w) jobId)
    | _, .job op => .ok (answering op)
    | w, .xread _ lastId count _ => .ok (((EventWorld.stream w).read lastId count).map fun e => (e.1, e.2.fields))
    | _, .xadd _ _ _ => .ok ""
    | _, .yield _ _ => .ok ()
    | _, .sleep _ => .ok ()
    | _, .stopIteration => .ok ()
  check w _ _ ev := @decide _ (EventWorld.decidableAllowed w ev)
  sound h := @of_decide_eq_true _ (EventWorld.decidableAllowed _ _) h

def startAttempt {m : Fields} {job : ConversionJob} (hjob : buildJob m = .ok job) (attempt i : ℕ) :
    (eventSystem ctx slack).Starter i where
  start w :=
    if (m, attempt) ∈ EventWorld.queued w then
      some (.worker job attempt, withEvents ctx.streamPrefix (thread (processJob wiredContext "2026-07" job)), w)
    else none
  sound h := by
    split_ifs at h with hm
    cases h
    exact ⟨rfl, .inr (.inl ⟨wiredContext, "2026-07", m, attempt, job, hm, hjob, rfl, rfl⟩)⟩

def startRequest (req : Request) (i : ℕ) : (eventSystem ctx slack).Starter i where
  start w := some (.request req, withEvents ctx.streamPrefix (req.program ctx), w)
  sound h := by
    cases h
    exact ⟨rfl, .inl ⟨req, rfl, rfl⟩⟩

def startReader (jobId : String) (rounds i : ℕ) : (eventSystem ctx slack).Starter i where
  start w := some (.subscriber jobId (EventWorld.attempt w jobId), thread (subscribe ctx.streamPrefix jobId rounds), w)
  sound h := by
    cases h
    exact ⟨rfl, .inr (.inr ⟨jobId, rounds, rfl, rfl⟩)⟩

/-- One API over an event stream that is trimmed to its limit exactly. -/
abbrev oneStream : Sys EventSig := eventSystem wiredService fun _ => 0

/-- A job of user 7, PENDING and published, and no event yet. -/
def onePendingJob : oneStream.Config where
  world := { rows := [deliveredJob], queued := [(deliveredMessage.toDict, 0)] }
  threads _ := none

/-- The first attempt fails in its download, the owner retries, and a reader is opened after the retry. -/
def failRetryRead : List (oneStream.Label × oneStream.Config) :=
  let work : oneStream.Move := .start 0 (startAttempt buildJob_delivered 0 0)
  let away : oneStream.Move := .fail 0 ⟨.other, "object storage is away"⟩ false
  let retry : oneStream.Move := .start 1 (startRequest (.retry "job-1" (some 7) .free) 1)
  let read : oneStream.Move := .start 2 (startReader "job-1" 2 2)
  Sys.drive eventDriver onePendingJob
    [work, .go 0, .go 0, .go 0, .go 0, .go 0, .go 0, away, away, away, .go 0, .go 0,
      retry, .go 1, .go 1, .go 1, read, .go 2, .go 2, .go 2, .go 2]

theorem ends_with_latest_iff_failRetryRead :
    Along EndsWithLatest onePendingJob failRetryRead ↔ Along EarliestIsLatest onePendingJob failRetryRead :=
  ends_with_latest_iff (fun _ => rfl) (steps_drive _ _ _)

/-- The reader opened after the retry ends with the FAILED event of the first attempt. -/
theorem ended_by_earlier_attempt : ¬ ∀ (ctx : ServiceContext) (slack : ℕ → ℕ) (c : (eventSystem ctx slack).Config)
    (tr : List ((eventSystem ctx slack).Label × (eventSystem ctx slack).Config)), (∀ i, c.threads i = none) →
      (eventSystem ctx slack).Steps c tr → Along EndsWithLatest c tr := by
  intro h
  have hrun := h wiredService _ onePendingJob failRetryRead (fun _ => rfl) (steps_drive _ _ _)
  exact @of_decide_eq_true _ (@instDecidableNot _ (@decidableAlong _ _ _ decidableEndsWithLatest _ _))
    (by decide +kernel) hrun

end Runs

end Transform.Conversions
