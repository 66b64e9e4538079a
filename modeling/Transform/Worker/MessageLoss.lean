import Transform.Worker.Loop

/-!
# Worker.MessageLoss — any number of converter workers on the job streams

Publishers and workers interleaved call by call, each stopping anywhere; any call may raise, with or without its effect.
`no_message_lost` holds where dead letters are stored and outlast their message; a dead letter that is not stored loses
the message (`message_lost_by_dead_letter`).
-/

namespace Transform.Worker

open Lib Conversions Queues

/-! ## The system -/

section System

inductive QueueTag
  | publisher
  | worker

/-- A publisher of one job, or a worker cut after some rounds. -/
def QueueRuns (streamPrefix : String) : QueueTag → Proc QueueSig Unit → Prop
  | .publisher, p => ∃ job stream, p = thread (Queues.publishJob job stream)
  | .worker, p => ∃ timeout n, p = thread ((run timeout n).exec (.create streamPrefix))

/-- The job streams, the dead letters, and what runs on them. -/
def conversionQueue (streamPrefix : String) (slack : ℕ → ℕ) : Sys QueueSig :=
  broker ConversionJob PyError (jobTopic slack) (QueueRuns streamPrefix)

/-- Empty streams, and nothing running. -/
def emptyQueue (streamPrefix : String) (slack : ℕ → ℕ) : (conversionQueue streamPrefix slack).Config :=
  ⟨({} : BrokerWorld Fields Fields), fun _ => none⟩

/-- A message leaves the pending entries only if its processing returned, its dead letter is held, or a copy of it was
appended to its stream. -/
def KeepsMessages (streamPrefix : String) (slack : ℕ → ℕ) (c : (conversionQueue streamPrefix slack).Config)
    (_ : (conversionQueue streamPrefix slack).Label) (c' : (conversionQueue streamPrefix slack).Config) : Prop :=
  LeavesSettled (jobTopic slack) (fun w => w.dead.content) c.world c'.world

end System

/-! ## Runs -/

section Runs

variable {streamPrefix : String} {slack : ℕ → ℕ}

theorem queueRuns_spec {tag : QueueTag} {p : Proc QueueSig Unit} (h : QueueRuns streamPrefix tag p) :
    wp (queueMonitor slack) p (fun _ _ => True) {} := by
  cases tag with
  | publisher =>
    obtain ⟨job, stream, rfl⟩ := h
    exact wp_thread (wp_mono (fun _ _ _ => trivial) publishJob_spec)
  | worker =>
    obtain ⟨timeout, n, rfl⟩ := h
    refine wp_thread (wp_mono (fun _ _ _ => trivial) (wpe_exec.2 (run_spec fun delivery hd => ?_)))
    cases hd

theorem brokerInv_empty : BrokerInv (emptyQueue streamPrefix slack) := by
  refine ⟨⟨fun stream fields h => ?_, fun i tag p h => ?_⟩, fun letter h => ?_, fun letter h => ?_⟩
  · cases h
  · cases h
  · cases h
  · cases h

/-- **No message is lost** in a run whose dead letters are stored when they are written, and in which none is evicted
while its message is pending. -/
theorem no_message_lost (streamPrefix : String) (slack : ℕ → ℕ) (tr : List ((conversionQueue streamPrefix slack).Label × _))
    (hs : (conversionQueue streamPrefix slack).Steps (emptyQueue streamPrefix slack) tr)
    (hφ : Along (ActOnly StoredSparing) (emptyQueue streamPrefix slack) tr) :
    Along (KeepsMessages streamPrefix slack) (emptyQueue streamPrefix slack) tr :=
  leaving_held (fun _ _ h => queueRuns_spec h) (jobTopic_naming slack) brokerInv_empty hs hφ

end Runs

/-! ## Concrete runs -/

section Concrete

/-- The system without a namespace, on a server that trims exactly. -/
abbrev plainQueue : Sys QueueSig := conversionQueue "" fun _ => 0

def plainDriver : plainQueue.Driver := brokerDriver ConversionJob PyError (jobTopic fun _ => 0) (QueueRuns "")

def someJob : ConversionJob where
  jobId := "job-1"
  conversion := ⟨"pdf", "docx"⟩
  inputFile := "a.pdf"
  objectKey := "up/a.pdf"
  status := .pending

def startPublisher (i : ℕ) : plainQueue.Starter i where
  start w := some (.publisher, thread (publishJob someJob jobStream), w)
  sound h := by
    cases h
    exact ⟨⟨someJob, jobStream, rfl⟩, rfl⟩

def startWorker (i : ℕ) : plainQueue.Starter i where
  start w := some (.worker, thread ((run 600 1).exec (.create "")), w)
  sound h := by
    cases h
    exact ⟨⟨600, 1, rfl⟩, rfl⟩

/-- A job is published, fetched, and its processing raises. -/
def failingMoves : List plainQueue.Move :=
  [.start 0 (startPublisher 0), .go 0, .start 1 (startWorker 1), .go 1, .go 1,
    .fail 1 ⟨.runtimeError, "boom"⟩ true]

def runOf (moves : List plainQueue.Move) : List (plainQueue.Label × plainQueue.Config) :=
  Sys.drive plainDriver (emptyQueue "" fun _ => 0) moves

/-- Its dead letter is written, and it is acknowledged. -/
def settledRun : List (plainQueue.Label × plainQueue.Config) := runOf (failingMoves ++ ([.go 1, .go 1] : List plainQueue.Move))

/-- Its dead letter is refused, and it is acknowledged all the same. -/
def lostRun : List (plainQueue.Label × plainQueue.Config) :=
  runOf (failingMoves ++ ([.fail 1 ⟨.other, "connection reset"⟩ false, .go 1] : List plainQueue.Move))

/-- The record of a failure is stored and nothing is evicted. -/
def EvictsNothing (c : plainQueue.Config) (i : ℕ) (tag : QueueTag) (ev : Event QueueSig) : Prop :=
  match ev.op with
  | .deadLetter _ => ev.took = true ∧ (plainQueue.apply c.world i tag ev : BrokerWorld Fields Fields).dead.evicted = 0
  | _ => True

instance decidableEvictsNothing (c : plainQueue.Config) (i : ℕ) (tag : QueueTag) (ev : Event QueueSig) :
    Decidable (EvictsNothing c i tag ev) := by
  unfold EvictsNothing
  split
  · infer_instance
  · infer_instance

theorem storedSparing_of_evictsNothing {c c' : plainQueue.Config} {l : plainQueue.Label}
    (h : ActOnly EvictsNothing c l c') : ActOnly StoredSparing c l c' := by
  cases l with
  | act i tag ev =>
    intro letter hop
    have hev : ev.took = true ∧ (BrokerWorld.apply c.world (jobTopic fun _ => 0) ev).dead.evicted = 0 := by
      have h' : EvictsNothing c i tag ev := h
      unfold EvictsNothing at h'
      rw [hop] at h'
      exact h'
    refine ⟨hev.1, fun letter hl => ?_⟩
    unfold Trimmed.dropped at hl
    rw [hev.2] at hl
    cases hl
  | _ => trivial

/-- A failed job whose dead letter is stored is kept. -/
theorem no_message_lost_dead_lettered : Along (KeepsMessages "" fun _ => 0) (emptyQueue "" fun _ => 0) settledRun := by
  refine no_message_lost "" (fun _ => 0) settledRun (steps_drive plainDriver _ _) ?_
  have hcheck : Along (ActOnly EvictsNothing) (emptyQueue "" fun _ => 0) settledRun :=
    @of_decide_eq_true _ (@decidableAlong _ _ _ (@decidableActOnly _ _ _ decidableEvictsNothing) _ _) (by decide +kernel)
  exact along_mono (fun _ _ _ h => storedSparing_of_evictsNothing h) hcheck

/-- The first message of the stream stays pending, or something became of it. -/
def FirstSettled (w w' : BrokerWorld Fields Fields) : Prop :=
  0 ∈ (w.groups jobStream).pending →
    0 ∈ (w'.groups jobStream).pending ∨ w'.returned ≠ [] ∨ w'.dead.content ≠ [] ∨ w'.copies ≠ []

def FirstKept (c : plainQueue.Config) (_ : plainQueue.Label) (c' : plainQueue.Config) : Prop :=
  FirstSettled c.world c'.world

instance decidableFirstKept (c : plainQueue.Config) (l : plainQueue.Label) (c' : plainQueue.Config) :
    Decidable (FirstKept c l c') := by
  unfold FirstKept FirstSettled
  infer_instance

theorem firstKept_of_keeps {c c' : plainQueue.Config} {l : plainQueue.Label}
    (h : KeepsMessages "" (fun _ => 0) c l c') : FirstKept c l c' := by
  intro hin
  by_cases hout : 0 ∈ (BrokerWorld.groups c'.world jobStream).pending
  · exact .inl hout
  · refine .inr ?_
    rcases h jobStream 0 hin hout with hr | ⟨fields, -, letter, hl, -⟩ | ⟨m, -, hc, -⟩
    · exact .inl (List.ne_nil_of_mem hr)
    · exact .inr (.inl (List.ne_nil_of_mem hl))
    · exact .inr (.inr (List.ne_nil_of_mem hc))

/-- A refused dead letter loses the message: it is acknowledged, and nothing is left of it. -/
theorem message_lost_by_dead_letter :
    ¬ ∀ (streamPrefix : String) (slack : ℕ → ℕ) (tr : List ((conversionQueue streamPrefix slack).Label × _)),
      (conversionQueue streamPrefix slack).Steps (emptyQueue streamPrefix slack) tr →
      Along (KeepsMessages streamPrefix slack) (emptyQueue streamPrefix slack) tr := by
  intro h
  have hkept : Along FirstKept (emptyQueue "" fun _ => 0) lostRun :=
    along_mono (fun _ _ _ h => firstKept_of_keeps h) (h "" (fun _ => 0) lostRun (steps_drive plainDriver _ _))
  have hlost : ¬ Along FirstKept (emptyQueue "" fun _ => 0) lostRun :=
    @of_decide_eq_true _ (@instDecidableNot _ (@decidableAlong _ _ _ decidableFirstKept _ _)) (by decide +kernel)
  exact hlost hkept

end Concrete

end Transform.Worker
