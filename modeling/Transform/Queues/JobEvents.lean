import Transform.Lib.StreamGroup
import Transform.Conversions.Ports
import Transform.Queues.JobStream

/-!
# Queues.JobEvents — the progress events of all jobs, and one job's reader

`publish` appends an event to the one stream of all jobs.  `iterEvents` replays that stream from its beginning and
then follows it, yields the entries of one job, and ends at the first COMPLETED or FAILED it meets.  The loop is cut
after any number of rounds; only `stopIteration` says that the generator has ended.

`iterEvents_spec`: what a reader has read held no terminal event of its job, and the one it ends at is the first.
-/

namespace Transform.Queues

open Lib Conversions

/-! ## The event stream -/

section Events

def jobEventStream : String := "conversion_job_events"

/-- Approximate cap on retained job events. -/
def eventStreamMaxlen : ℕ := 100000

/-- The back-off of the replay loop, in milliseconds. -/
def replayRetryBaseDelay : ℕ := 500
def replayRetryMaxDelay : ℕ := 10000

inductive EventOp
  | job (op : JobOp)
  | xadd (stream : String) (fields : Fields) (maxlen : ℕ)
  | xread (stream lastId : String) (count block : ℕ)
  | yield (messageId : String) (fields : Fields)
  | sleep (milliseconds : ℕ)
  | stopIteration

abbrev EventOp.Ans : EventOp → Type
  | .job op => op.Ans
  | .xadd _ _ _ => String
  | .xread _ _ _ _ => List (String × Fields)
  | _ => Unit

/-- The conversion code with its event stream. -/
abbrev EventSig : Sig := ⟨EventOp, EventOp.Ans, PyError⟩

abbrev Events (α : Type) : Type := Act EventSig PyError α

/-- One call. -/
def events (op : EventOp) : Events op.Ans := @ask EventSig op

/-- The fields of an event's entry; an extra that is `None` is dropped. -/
def eventFields (event : JobEvent) : Fields :=
  [("job_id", event.jobId), ("status", event.status.value), ("progress", event.progress.repr),
    ("message", event.message.getD "")]
  ++ (event.computeDurationMs.map fun v => ("compute_duration_ms", v.repr)).toList
  ++ (event.creditsUsed.map fun v => ("credits_used", v.repr)).toList
  ++ (event.inputSizeBytes.map fun v => ("input_size_bytes", v.repr)).toList
  ++ (event.outputSizeBytes.map fun v => ("output_size_bytes", v.repr)).toList
  ++ (event.outputFile.map fun v => ("output_file", v)).toList
  ++ (event.creditsRemaining.map fun v => ("credits_remaining", v.repr)).toList

variable (streamPrefix : String)

/-- A program of the conversion code, its event port a `JobEventPublisher`. -/
def withEvents {α : Type} : Proc JobSig α → Proc EventSig α
  | .ret a => .ret a
  | .call (.publishEvent event) k =>
    .call (.xadd (qualify streamPrefix jobEventStream) (eventFields event) eventStreamMaxlen)
      fun out => withEvents (k (out.map fun _ => ()))
  | .call op k => .call (.job op) fun out => withEvents (k out)

/-- The event ends the stream of its job. -/
def isTerminal (fields : Fields) : Bool :=
  fields.lookup "status" = some "COMPLETED" ∨ fields.lookup "status" = some "FAILED"

variable (jobId : String)

/-- Yield the job's entries of one reply, up to a terminal one.  Returns the cursor, which passes every entry, and
whether there was a terminal one. -/
def readMessages : List (String × Fields) → String → Events (String × Bool)
  | [], lastId => return (lastId, false)
  | (messageId, fields) :: messages, _ =>
    if fields.lookup "job_id" ≠ some jobId then readMessages messages messageId
    else do
      events (.yield messageId fields)
      if isTerminal fields then return (messageId, true) else readMessages messages messageId

/-- `JobEventSubscriber.iter_events`, up to so many rounds: whether it has ended. -/
def iterEvents : ℕ → String → ℕ → Events Bool
  | 0, _, _ => return false
  | n + 1, lastId, backoff => do
    let reply ← Act.tryCatch (do
        let messages ← events (.xread (qualify streamPrefix jobEventStream) lastId 50 5000)
        return Except.ok messages)
      fun e => return Except.error e
    match reply with
    | .error _ =>
      events (.sleep backoff)
      iterEvents n lastId (min (backoff * 2) replayRetryMaxDelay)
    | .ok messages =>
      let (lastId, terminalSeen) ← readMessages jobId messages lastId
      if terminalSeen then return true else iterEvents n lastId replayRetryBaseDelay

/-- A reader: history is replayed first. -/
def subscribe (rounds : ℕ) : Events Unit := do
  if ← iterEvents streamPrefix jobId rounds "0" replayRetryBaseDelay then events .stopIteration

end Events

/-! ## What a reader has seen -/

section Reading

/-- An entry is a terminal event of the job. -/
def isTerminalOf (jobId : String) (fields : Fields) : Bool :=
  fields.lookup "job_id" = some jobId ∧ isTerminal fields

/-- The cursor behind the last reply, that reply, and the pair last yielded. -/
structure Reading where
  cursor : String := "0"
  page : List (String × Fields) := []
  last : Option (String × Fields) := none

def readingStep (g : Reading) : Event EventSig → Reading
  | ⟨.xread _ _ _ _, .ok page, _, _⟩ => { g with cursor := Trimmed.advance g.cursor page, page }
  | ⟨.yield messageId fields, .ok _, _, _⟩ => { g with last := some (messageId, fields) }
  | _ => g

/-- The first terminal event of the job in a reply. -/
def firstTerminal (jobId : String) (page : List (String × Fields)) : Option (String × Fields) :=
  page.find? fun e => isTerminalOf jobId e.2

/-- What a reader may ask: it reads on from its cursor while there was no terminal event, yields what it has read, and
ends at the first terminal event, which it has yielded. -/
def ReadingPermitted (jobId : String) (g : Reading) : EventOp → Prop
  | .xread _ lastId _ _ => lastId = g.cursor ∧ firstTerminal jobId g.page = none
  | .yield messageId fields => (messageId, fields) ∈ g.page
  | .sleep _ => True
  | .stopIteration => ∃ e, firstTerminal jobId g.page = some e ∧ g.last = some e
  | _ => False

def readingMonitor (jobId : String) : Monitor EventSig Reading where
  pre := ReadingPermitted jobId
  rely _ _ := True
  step := readingStep

variable {streamPrefix jobId : String} {g : Reading}

theorem advance_cons {E : Type} {cursor id : String} {x : E} {page : List (String × E)} :
    Trimmed.advance cursor ((id, x) :: page) = Trimmed.advance id page := by
  unfold Trimmed.advance
  rw [List.getLast?_cons]
  rcases page.getLast? with _ | e <;> rfl

/-- The loop over a reply: a terminal entry ends it just yielded, and otherwise the cursor is behind the last entry. -/
theorem readMessages_spec : ∀ (messages before : List (String × Fields)) {lastId : String}
    {g : Reading}, g.page = before ++ messages → firstTerminal jobId before = none →
      wpe (readingMonitor jobId) (readMessages jobId messages lastId)
        (fun r g' => g'.cursor = g.cursor ∧ g'.page = g.page ∧
          if r.2 then ∃ e, firstTerminal jobId g.page = some e ∧ g'.last = some e
          else firstTerminal jobId g.page = none ∧ r.1 = Trimmed.advance lastId messages)
        (fun _ _ => True) g
  | [], before, lastId, g, hpage, hnone => by
    refine ⟨rfl, rfl, ?_⟩
    rw [hpage, List.append_nil]
    exact ⟨hnone, rfl⟩
  | (messageId, fields) :: messages, before, lastId, g, hpage, hnone => by
    have hpage' : g.page = (before ++ [(messageId, fields)]) ++ messages := by
      rw [hpage, List.append_assoc, List.singleton_append]
    have next : isTerminalOf jobId fields = false →
        firstTerminal jobId (before ++ [(messageId, fields)]) = none := by
      intro hterm
      rw [firstTerminal, List.find?_append, ← firstTerminal, hnone, Option.none_or]
      simp [hterm]
    unfold readMessages
    rw [advance_cons]
    by_cases hjob : fields.lookup "job_id" ≠ some jobId
    · rw [if_pos hjob]
      exact readMessages_spec messages _ hpage' (next (by simp [isTerminalOf, hjob]))
    · rw [if_neg hjob, wpe_bind]
      refine wpe_ask.2 ⟨by show _ ∈ g.page; simp [hpage], fun _ _ => ?_, fun _ _ _ _ => trivial⟩
      have hstep : (readingMonitor jobId).step g (.done (.yield messageId fields) (.ok ())) =
          { g with last := some (messageId, fields) } := rfl
      rw [hstep]
      by_cases hterm : isTerminal fields = true
      · rw [if_pos hterm]
        refine ⟨rfl, rfl, (messageId, fields), ?_, rfl⟩
        rw [hpage, firstTerminal, List.find?_append, ← firstTerminal, hnone, Option.none_or, List.find?_cons_of_pos]
        simpa [isTerminalOf, hterm] using hjob
      · rw [if_neg hterm]
        exact readMessages_spec (g := { g with last := some (messageId, fields) }) messages _ hpage'
          (next (by simp [isTerminalOf, hterm]))

theorem iterEvents_spec : ∀ (n : ℕ) {lastId : String} {backoff : ℕ} {g : Reading}, lastId = g.cursor →
    firstTerminal jobId g.page = none →
      wpe (readingMonitor jobId) (iterEvents streamPrefix jobId n lastId backoff)
        (fun r g' => r = true → ∃ e, firstTerminal jobId g'.page = some e ∧ g'.last = some e) (fun _ _ => True) g
  | 0, _, _, _, _, _ => fun h => by cases h
  | n + 1, lastId, backoff, g, hcursor, hnone => by
    unfold iterEvents
    rw [wpe_bind, wpe_tryCatch, wpe_bind]
    refine wpe_ask.2 ⟨⟨hcursor, hnone⟩, fun messages _ => ?_, fun e took hk _ => ?_⟩
    · have hstep : (readingMonitor jobId).step g
          (.done (.xread (qualify streamPrefix jobEventStream) lastId 50 5000) (.ok messages)) =
          { g with cursor := Trimmed.advance g.cursor messages, page := messages } := rfl
      rw [hstep, wpe_pure]
      dsimp only
      rw [wpe_bind]
      refine wpe_mono (readMessages_spec messages [] rfl rfl) ?_ fun _ _ _ => trivial
      rintro ⟨lastId', terminalSeen⟩ g' ⟨hcur, hpage, hrest⟩
      rcases terminalSeen with _ | _
      · obtain ⟨hnone', hlast⟩ := hrest
        refine iterEvents_spec n ?_ (by rw [hpage]; exact hnone')
        rw [hcur]
        exact hlast.trans (by rw [hcursor])
      · intro _
        rw [hpage]
        exact hrest
    · rw [wpe_pure]
      dsimp only
      rw [wpe_bind]
      exact wpe_ask.2 ⟨trivial, fun _ _ => iterEvents_spec n hcursor hnone, fun _ _ _ _ => trivial⟩

/-- **A reader ends at the first terminal event it reads**, which it has just yielded. -/
theorem subscribe_spec {rounds : ℕ} : wp (readingMonitor jobId) (thread (subscribe streamPrefix jobId rounds))
    (fun _ _ => True) {} := by
  refine wp_thread_of_wpe ?_
  unfold subscribe
  rw [wpe_bind]
  refine wpe_mono (iterEvents_spec rounds rfl rfl) (fun ended g hg => ?_) fun _ _ _ => trivial
  split_ifs with h
  · exact wpe_ask.2 ⟨hg h, fun _ _ => trivial, fun _ _ _ _ => trivial⟩
  · trivial

end Reading

end Transform.Queues
