import Transform.Queues.WorkspaceStream

/-!
# Workspaces.Loop — the loop of a workspace worker, and any number of them on the work stream

The loop fetches, processes and settles messages, and sweeps the pending entries when it is idle.  It is cut after any
number of rounds: a worker may stop anywhere.  `no_work_lost`: an entry leaves the pending list only after its processing
returned, its failure was recorded or the same message was appended, in every run whose dead letters are stored.
-/

namespace Transform.Workspaces

open Lib Conversions Queues

/-! ## The loop -/

section Loop

variable (stream : String) (executionTimeoutSeconds : ℕ)

/-- What processing a message raised, if anything. -/
def processOf (messageId : String) (message : WorkspaceWorkMessage) : Act WorkSig WorkError (Option WorkError) :=
  Act.tryCatch (do
    workRedis (.process messageId message)
    return none) fun e => return some e

/-- `WorkspaceWorker._handle`. -/
def handleWork (messageId : String) (message : WorkspaceWorkMessage) : Act WorkSig WorkError Unit := do
  match ← processOf messageId message with
  | some error => fail stream messageId error.text
  | none => acknowledge stream messageId

/-- Every 30th idle round sweeps. -/
def maybeSweepStale (idleSweeps : ℕ) : Act WorkSig WorkError Unit :=
  if idleSweeps % max 1 (300 / 10) ≠ 0 then return ()
  else Act.tryCatch (do
    let _ ← reclaimStale stream executionTimeoutSeconds
    return ()) fun _ => return ()

/-- What a read gave; `none` where it raised. -/
def tryFetch : Act WorkSig WorkError (Option (Option (String × WorkspaceWorkMessage))) :=
  Act.tryCatch (do
    let work ← fetch stream
    return some work) fun _ => return none

/-- So many rounds of the loop, which an acknowledgement that raises ends. -/
def workRounds : ℕ → ℕ → Act WorkSig WorkError Unit
  | 0, _ => return ()
  | n + 1, idleSweeps => do
    match ← tryFetch stream with
    | none => workRounds n idleSweeps
    | some none => do
      maybeSweepStale stream executionTimeoutSeconds (idleSweeps + 1)
      workRounds n (idleSweeps + 1)
    | some (some (messageId, message)) => do
      handleWork stream messageId message
      workRounds n idleSweeps

end Loop

/-! ## What a worker does -/

section Specs

variable {stream : String} {slack : ℕ → ℕ} {g : Known Fields Fields}

/-- The fields of the message of an execution or of a snapshot, which has an id. -/
def IsWorkMessage (fields : Fields) : Prop :=
  (∃ execution : Execution, execution.executionId ≠ "" ∧ fields = (executionMessage execution).toDict) ∨
    ∃ revision : RuntimeImageRevision, revision.revisionId ≠ "" ∧ fields = (snapshotMessage revision).toDict

def IsWorkFailure (messageId : String) (_ letter : Fields) : Prop :=
  letter.lookup "original_message_id" = some messageId

def workTopic (slack : ℕ → ℕ) : Topic Fields Fields where
  key _ messageId := messageId
  IsLetter := IsWorkFailure
  Published := IsWorkMessage
  maxlen := 10000
  slack := slack

abbrev workMonitor (slack : ℕ → ℕ) : Monitor WorkSig (Known Fields Fields) :=
  brokerMonitor WorkspaceWorkMessage WorkError (workTopic slack)

theorem toDict_fromDict {fields : Fields} (h : IsWorkMessage fields) :
    (WorkspaceWorkMessage.fromDict fields).toDict = fields := by
  rcases h with ⟨execution, hid, rfl⟩ | ⟨revision, hid, rfl⟩
  · rw [WorkspaceWorkMessage.fromDict_toDict]
    · exact fun h => hid (Option.some.inj h)
    · exact fun h => (by cases h)
  · rw [WorkspaceWorkMessage.fromDict_toDict]
    · exact fun h => (by cases h)
    · exact fun h => hid (Option.some.inj h)

theorem ne_nil_of_isWorkMessage {fields : Fields} (h : IsWorkMessage fields) : fields ≠ [] := by
  rcases h with ⟨execution, -, rfl⟩ | ⟨revision, -, rfl⟩
  · simp [WorkspaceWorkMessage.toDict]
  · simp [WorkspaceWorkMessage.toDict]

/-- What leaves the rest of a loop to be shown: more may be known. -/
def More (g g' : Known Fields Fields) : Prop := ∀ delivery ∈ g.held, delivery ∈ g'.held

theorem acknowledge_spec {messageId : String} (hdone : g.Done (workTopic slack) stream messageId) :
    wpe (workMonitor slack) (acknowledge stream messageId) (fun _ => More g) (fun _ => More g) g :=
  wpe_ask.2 ⟨hdone, fun _ _ => held_step _, fun _ _ _ _ => held_step _⟩

theorem safeAck_spec {messageId : String} (hdone : g.Done (workTopic slack) stream messageId) :
    wpe (workMonitor slack) (safeAck stream messageId) (fun _ => More g) (fun _ _ => False) g := by
  unfold safeAck
  rw [wpe_tryCatch]
  exact wpe_mono (acknowledge_spec hdone) (fun _ _ h => h) fun _ _ h => h

theorem more_trans {g g' g'' : Known Fields Fields} (h : More g g') (h' : More g' g'') : More g g'' :=
  fun delivery hd => h' delivery (h delivery hd)

theorem reclaimEntry_spec {messageId : String} {fields : Fields} (hheld : (stream, messageId, fields) ∈ g.held)
    (hmessage : IsWorkMessage fields) :
    wpe (workMonitor slack) (reclaimEntry stream messageId fields) (fun _ => More g) (fun _ _ => False) g := by
  unfold reclaimEntry requeueWork
  rw [if_neg (ne_nil_of_isWorkMessage hmessage), toDict_fromDict hmessage]
  simp only [wpe_tryCatch, wpe_bind]
  refine wpe_ask.2 ⟨hheld, fun _ _ => ?_, fun _ took hk _ => held_step _⟩
  have hcopied : (stream, messageId, fields) ∈ (stream, messageId, fields) :: g.copied := List.mem_cons_self ..
  exact wpe_mono (safeAck_spec ⟨fields, hheld, .inr (.inr hcopied)⟩) (fun _ _ h => h) fun _ _ h => h.elim

theorem reclaimEntries_spec : ∀ (entries : List (String × Fields)) {g : Known Fields Fields},
    (∀ entry ∈ entries, (stream, entry) ∈ g.held ∧ IsWorkMessage entry.2) →
    wpe (workMonitor slack) (reclaimEntries stream entries) (fun _ => More g) (fun _ _ => False) g
  | [], _, _ => fun _ h => h
  | (messageId, fields) :: entries, g, hentries => by
    unfold reclaimEntries
    simp only [wpe_bind]
    obtain ⟨hheld, hmessage⟩ := hentries _ (List.mem_cons_self ..)
    refine wpe_mono (reclaimEntry_spec hheld hmessage) (fun _ g' hg' => ?_) fun _ _ h => h
    refine wpe_mono (reclaimEntries_spec entries fun entry he => ?_) (fun _ g'' hg'' => more_trans hg' hg'')
      fun _ _ h => h
    have hin := hentries entry (List.mem_cons_of_mem _ he)
    exact ⟨hg' _ hin.1, hin.2⟩

theorem reclaimStale_spec {timeout count : ℕ} :
    wpe (workMonitor slack) (reclaimStale stream timeout count) (fun _ _ => True) (fun _ _ => True) g := by
  unfold reclaimStale
  simp only [wpe_bind, wpe_tryCatch]
  refine wpe_ask.2 ⟨trivial, fun reply hreply => ?_, fun _ _ _ _ => ?_⟩
  · rw [wpe_pure]
    refine wpe_mono (reclaimEntries_spec _ fun entry he => ?_) (fun _ _ _ => trivial) fun _ _ _ => trivial
    unfold claimedEntries at he
    split_ifs at he
    · exact ⟨List.mem_append_left _ (List.mem_map_of_mem he), hreply entry he⟩
    · cases he
  · rw [wpe_pure]
    exact trivial

theorem tryFetch_spec :
    wpe (workMonitor slack) (tryFetch stream) (fun r g => ∀ messageId message, r = some (some (messageId, message)) →
      ∃ fields, (stream, messageId, fields) ∈ g.held) (fun _ _ => False) g := by
  unfold tryFetch fetch
  simp only [wpe_tryCatch, wpe_bind]
  refine wpe_ask.2 ⟨trivial, fun reply hreply => ?_, fun _ _ _ _ messageId message h => (by cases h)⟩
  intro messageId message h
  rcases reply with _ | ⟨⟨s, id, fields⟩, rest⟩
  · cases h
  · cases h
    obtain rfl : s = stream := List.mem_singleton.1 (hreply _ (List.mem_cons_self ..)).1
    exact ⟨fields, List.mem_append_left _ (List.mem_cons_self ..)⟩

/-- A message is settled only after its processing returned or its failure was recorded. -/
theorem handleWork_spec {messageId : String} {message : WorkspaceWorkMessage} {fields : Fields}
    (hheld : (stream, messageId, fields) ∈ g.held) :
    wpe (workMonitor slack) (handleWork stream messageId message) (fun _ _ => True) (fun _ _ => True) g := by
  unfold handleWork processOf
  simp only [wpe_bind, wpe_tryCatch]
  refine wpe_ask.2 ⟨trivial, fun _ _ => ?_, fun error took hk _ => ?_⟩
  · rw [wpe_pure]
    have hreturned : messageId ∈ messageId :: g.returned := List.mem_cons_self ..
    exact wpe_mono (@acknowledge_spec stream slack { g with returned := messageId :: g.returned } messageId
      ⟨fields, hheld, .inl hreturned⟩) (fun _ _ _ => trivial) fun _ _ _ => trivial
  · rw [wpe_pure]
    unfold fail deadLetter
    simp only [wpe_bind, wpe_tryCatch]
    have settle : ∀ letter, IsWorkFailure messageId fields letter →
        wpe (workMonitor slack) (acknowledge stream messageId) (fun _ _ => True) (fun _ _ => True)
          { g with letters := letter :: g.letters } := by
      intro letter hletter
      have hin : letter ∈ letter :: g.letters := List.mem_cons_self ..
      exact wpe_mono (acknowledge_spec ⟨fields, hheld, .inr (.inl ⟨letter, hin, hletter⟩)⟩) (fun _ _ _ => trivial)
        fun _ _ _ => trivial
    have hletter : IsWorkFailure messageId fields (workDeadLetterFields messageId error.text) := rfl
    refine wpe_ask.2 ⟨⟨stream, messageId, fields, hheld, hletter⟩, fun _ _ => settle _ hletter, fun _ took hk htook => ?_⟩
    obtain rfl : took = true := htook
    exact settle _ hletter

theorem workRounds_spec {timeout : ℕ} : ∀ (n idleSweeps : ℕ) {g : Known Fields Fields},
    wpe (workMonitor slack) (workRounds stream timeout n idleSweeps) (fun _ _ => True) (fun _ _ => True) g
  | 0, _, _ => trivial
  | n + 1, idleSweeps, g => by
    unfold workRounds
    rw [wpe_bind]
    refine wpe_mono tryFetch_spec (fun r g' hr => ?_) fun _ _ h => h.elim
    rcases r with _ | _ | ⟨messageId, message⟩
    · exact workRounds_spec n idleSweeps
    · simp only [wpe_bind]
      unfold maybeSweepStale
      split_ifs
      · exact workRounds_spec n _
      · simp only [wpe_tryCatch, wpe_bind]
        exact wpe_mono reclaimStale_spec (fun _ _ _ => workRounds_spec n _) fun _ _ _ => workRounds_spec n _
    · obtain ⟨fields, hheld⟩ := hr messageId message rfl
      simp only [wpe_bind]
      exact wpe_mono (handleWork_spec hheld) (fun _ _ _ => workRounds_spec n _) fun _ _ _ => trivial

theorem publishWork_spec {message : WorkspaceWorkMessage} (h : IsWorkMessage message.toDict) :
    wpe (workMonitor slack) (publishWork stream message) (fun _ _ => True) (fun _ _ => True) g :=
  wpe_ask.2 ⟨h, fun _ _ => trivial, fun _ _ _ _ => trivial⟩

end Specs

/-! ## Any number of workers -/

section System

inductive WorkTag
  | publisher
  | worker

/-- A publisher of one message, whose execution or snapshot has an id, or a worker cut after some rounds. -/
def WorkRuns (stream : String) : WorkTag → Proc WorkSig Unit → Prop
  | .publisher, p =>
    (∃ execution : Execution, execution.executionId ≠ "" ∧ p = thread (publishExecution stream execution)) ∨
      ∃ revision : RuntimeImageRevision, revision.revisionId ≠ "" ∧ p = thread (publishSnapshot stream revision)
  | .worker, p => ∃ timeout n, p = thread (workRounds stream timeout n 0)

/-- The work stream, the dead letters, and what runs on them. -/
def workQueue (stream : String) (slack : ℕ → ℕ) : Sys WorkSig :=
  broker WorkspaceWorkMessage WorkError (workTopic slack) (WorkRuns stream)

/-- Empty streams, and nothing running. -/
def emptyWork (stream : String) (slack : ℕ → ℕ) : (workQueue stream slack).Config :=
  ⟨({} : BrokerWorld Fields Fields), fun _ => none⟩

/-- An entry leaves the pending list only if its processing returned, its failure was recorded, or the same message was
appended. -/
def KeepsWork (stream : String) (slack : ℕ → ℕ) (c : (workQueue stream slack).Config)
    (_ : (workQueue stream slack).Label) (c' : (workQueue stream slack).Config) : Prop :=
  LeavesSettled (workTopic slack) (fun w => w.dead.log) c.world c'.world

theorem workRuns_spec {stream : String} {slack : ℕ → ℕ} {tag : WorkTag} {p : Proc WorkSig Unit}
    (h : WorkRuns stream tag p) : wp (workMonitor slack) p (fun _ _ => True) {} := by
  cases tag with
  | publisher =>
    rcases h with ⟨execution, hid, rfl⟩ | ⟨revision, hid, rfl⟩
    · exact wp_thread (wp_mono (fun _ _ _ => trivial) (publishWork_spec (.inl ⟨execution, hid, rfl⟩)))
    · exact wp_thread (wp_mono (fun _ _ _ => trivial) (publishWork_spec (.inr ⟨revision, hid, rfl⟩)))
  | worker =>
    obtain ⟨timeout, n, rfl⟩ := h
    exact wp_thread (wp_mono (fun _ _ _ => trivial) (workRounds_spec n 0))

/-- **No work is lost** in a run whose dead letters are stored when they are written. -/
theorem no_work_lost (stream : String) (slack : ℕ → ℕ) (tr : List ((workQueue stream slack).Label × _))
    (hs : (workQueue stream slack).Steps (emptyWork stream slack) tr)
    (hφ : Along (ActOnly Stored) (emptyWork stream slack) tr) :
    Along (KeepsWork stream slack) (emptyWork stream slack) tr := by
  refine leaving_settled (fun _ _ h => workRuns_spec h) ⟨fun s fields h => ?_, fun i tag p h => ?_⟩ hs hφ
  · cases h
  · cases h

end System

/-! ## Concrete runs -/

section Concrete

abbrev plainWork : Sys WorkSig := workQueue workspaceWorkStream fun _ => 0

def plainWorkDriver : plainWork.Driver :=
  brokerDriver WorkspaceWorkMessage WorkError (workTopic fun _ => 0) (WorkRuns workspaceWorkStream)

def someExecution : Execution where
  executionId := "e-1"
  workspaceId := "w-1"
  userId := 7
  mode := .script
  source := "print(1)"

def startExecutionPublisher (i : ℕ) : plainWork.Starter i where
  start w := some (.publisher, thread (publishExecution workspaceWorkStream someExecution), w)
  sound h := by
    cases h
    exact ⟨.inl ⟨someExecution, by decide, rfl⟩, rfl⟩

def startWorkspaceWorker (i : ℕ) : plainWork.Starter i where
  start w := some (.worker, thread (workRounds workspaceWorkStream 300 1 0), w)
  sound h := by
    cases h
    exact ⟨⟨300, 1, rfl⟩, rfl⟩

/-- An execution is published, fetched, and its processing raises. -/
def failingWork : List plainWork.Move :=
  [.start 0 (startExecutionPublisher 0), .go 0, .start 1 (startWorkspaceWorker 1), .go 1,
    .fail 1 { name := "OperationalError", message := "no connection" } true]

def workRunOf (moves : List plainWork.Move) : List (plainWork.Label × plainWork.Config) :=
  Sys.drive plainWorkDriver (emptyWork workspaceWorkStream fun _ => 0) moves

/-- Its dead letter is written, and it is acknowledged. -/
def settledWork : List (plainWork.Label × plainWork.Config) :=
  workRunOf (failingWork ++ ([.go 1, .go 1] : List plainWork.Move))

/-- Its dead letter is refused, and it is acknowledged all the same. -/
def lostWork : List (plainWork.Label × plainWork.Config) :=
  workRunOf (failingWork ++
    ([.fail 1 { name := "ConnectionError", message := "reset" } false, .go 1] : List plainWork.Move))

instance decidableStored (c : plainWork.Config) (i : ℕ) (tag : WorkTag) (ev : Event WorkSig) :
    Decidable (Stored c i tag ev) := by
  unfold Stored
  split
  · infer_instance
  · infer_instance

/-- A failed message whose dead letter is stored is kept. -/
theorem no_work_lost_dead_lettered :
    Along (KeepsWork workspaceWorkStream fun _ => 0) (emptyWork workspaceWorkStream fun _ => 0) settledWork :=
  no_work_lost workspaceWorkStream (fun _ => 0) settledWork (steps_drive plainWorkDriver _ _)
    (@of_decide_eq_true _ (@decidableAlong _ _ _ (@decidableActOnly _ _ _ decidableStored) _ _) (by decide +kernel))

/-- The first message of the stream stays pending, or something became of it. -/
def FirstWorkSettled (w w' : BrokerWorld Fields Fields) : Prop :=
  0 ∈ (w.groups workspaceWorkStream).pending →
    0 ∈ (w'.groups workspaceWorkStream).pending ∨ w'.returned ≠ [] ∨ w'.dead.log ≠ [] ∨ w'.copies ≠ []

def FirstWorkKept (c : plainWork.Config) (_ : plainWork.Label) (c' : plainWork.Config) : Prop :=
  FirstWorkSettled c.world c'.world

instance decidableFirstWorkKept (c : plainWork.Config) (l : plainWork.Label) (c' : plainWork.Config) :
    Decidable (FirstWorkKept c l c') := by
  unfold FirstWorkKept FirstWorkSettled
  infer_instance

theorem firstWorkKept_of_keeps {c c' : plainWork.Config} {l : plainWork.Label}
    (h : KeepsWork workspaceWorkStream (fun _ => 0) c l c') : FirstWorkKept c l c' := by
  intro hin
  by_cases hout : 0 ∈ (BrokerWorld.groups c'.world workspaceWorkStream).pending
  · exact .inl hout
  · refine .inr ?_
    rcases h workspaceWorkStream 0 hin hout with hr | ⟨fields, -, letter, hl, -⟩ | ⟨m, -, hc, -⟩
    · exact .inl (List.ne_nil_of_mem hr)
    · exact .inr (.inl (List.ne_nil_of_mem hl))
    · exact .inr (.inr (List.ne_nil_of_mem hc))

/-- A refused dead letter loses the message: `fail` acknowledges it, and nothing is left of it. -/
theorem work_lost_by_dead_letter :
    ¬ ∀ (stream : String) (slack : ℕ → ℕ) (tr : List ((workQueue stream slack).Label × _)),
      (workQueue stream slack).Steps (emptyWork stream slack) tr →
      Along (KeepsWork stream slack) (emptyWork stream slack) tr := by
  intro h
  have hkept : Along FirstWorkKept (emptyWork workspaceWorkStream fun _ => 0) lostWork :=
    along_mono (fun _ _ _ h => firstWorkKept_of_keeps h)
      (h workspaceWorkStream (fun _ => 0) lostWork (steps_drive plainWorkDriver _ _))
  have hlost : ¬ Along FirstWorkKept (emptyWork workspaceWorkStream fun _ => 0) lostWork :=
    @of_decide_eq_true _ (@instDecidableNot _ (@decidableAlong _ _ _ decidableFirstWorkKept _ _)) (by decide +kernel)
  exact hlost hkept

end Concrete

end Transform.Workspaces
