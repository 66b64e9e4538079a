import Transform.Lib.Interleave
import Transform.Workspaces.Processor
import Transform.Workspaces.Rows

/-!
# Workspaces.ExecutionSystem — handlers, submits and cancels over the rows of executions

Any number of deliveries of work messages, of submits and of cancels, interleaved call by call, with any call raising.
Every UPDATE writes an end, a claim moves a QUEUED row only, and no row is QUEUED again once it is not
(`Progress`).  `executionMonitor` says what a thread may ask: it writes an execution it has read before it ended, and
runs a program only after its own claim.
-/

namespace Transform.Workspaces

open Lib Conversions Queues

/-! ## The system -/

section System

/-- A delivery of a message, a submit, or a cancel. -/
inductive ExecutionParty
  | handler (message : WorkspaceWorkMessage)
  | submitter (req : SubmitRequest)
  | canceller (executionId : String) (userId : ℤ)

namespace ExecutionParty

def program (ctx : WorkspaceContext) : ExecutionParty → Proc WorkspaceSig Unit
  | .handler message => thread (handleExecution ctx message)
  | .submitter req => thread (submitRoute ctx req)
  | .canceller executionId userId => thread (cancel executionId userId)

/-- The execution a delivery is about. -/
def target : ExecutionParty → Option String
  | .handler message => truthy message.executionId
  | _ => none

/-- The workspace and the idempotency key of a submit that has one. -/
def keyed : ExecutionParty → Option (String × String)
  | .submitter req => req.key.map fun key => (req.workspaceId, key)
  | _ => none

end ExecutionParty

/-- The rows.  Beside them, whom an id was issued to, and for each execution: how many commits have ended it, how many
each thread had seen when it last read the row, whose claim took effect, how often the provider was asked to run it, and
whether CANCELLED was committed before any claim.  Last, the executions whose message was published, and the answers to
submits with a key: of which workspace and key, and the execution. -/
structure ExecutionWorld where
  rows : ExecutionRows
  issued : String → Option ℕ := fun _ => none
  ends : String → ℕ := fun _ => 0
  seen : ℕ → String → ℕ := fun _ _ => 0
  owner : String → Option ℕ := fun _ => none
  runs : String → ℕ := fun _ => 0
  early : String → Bool := fun _ => false
  published : List String := []
  answers : List (String × String × String) := []

namespace ExecutionWorld

variable (w : ExecutionWorld)

/-- The thread has read, or written, the row as it stands. -/
def look (i : ℕ) (id : String) : ExecutionWorld :=
  { w with seen := Function.update w.seen i (Function.update (w.seen i) id (w.ends id)) }

/-- A claim is won: the row is QUEUED. -/
def Claimable (id : String) : Prop := (w.rows.get id).map (·.status) = some .queued

instance (id : String) : Decidable (w.Claimable id) := by
  unfold Claimable
  infer_instance

def claim (i : ℕ) (id runtimeId : String) (startedAt : ℤ) : ExecutionWorld :=
  { w with
    rows := w.rows.claim id runtimeId startedAt
    owner := if w.Claimable id then Function.update w.owner id (some i) else w.owner }

def finish (e : Execution) : ExecutionWorld :=
  { w with
    rows := w.rows.update e
    ends := if (w.rows.get e.executionId).isSome then Function.update w.ends e.executionId (w.ends e.executionId + 1)
      else w.ends
    early := if e.status = .cancelled ∧ w.owner e.executionId = none ∧ (w.rows.get e.executionId).isSome then
      Function.update w.early e.executionId true else w.early }

/-- What an exchange does. -/
def apply (i : ℕ) (party : ExecutionParty) : Event WorkspaceSig → ExecutionWorld
  | ⟨.uuid4, .ok id, _, _⟩ => { w with issued := Function.update w.issued id (some i) }
  | ⟨.getExecution id, .ok (some _), _, _⟩ => w.look i id
  | ⟨.getExecutionForUser id _, .ok (some _), _, _⟩ => w.look i id
  | ⟨.insertExecution row, _, true, _⟩ => { w with rows := w.rows.insert row }.look i row.executionId
  | ⟨.claimExecution id runtimeId startedAt, _, true, _⟩ => w.claim i id runtimeId startedAt
  | ⟨.updateExecution e, _, true, _⟩ => w.finish e
  | ⟨.provider (.execute _ _), _, _, _⟩ =>
    { w with runs := party.target.elim w.runs fun id => Function.update w.runs id (w.runs id + 1) }
  | ⟨.publish message, _, true, _⟩ => { w with published := message.executionId.toList ++ w.published }
  | ⟨.respond e, _, _, _⟩ =>
    { w with answers := (party.keyed.map fun key => (key.1, key.2, e.executionId)).toList ++ w.answers }
  | _ => w

/-- The INSERT was refused by a unique index. -/
def refused : Except WorkError Unit → Bool
  | .error e => e.name = "IntegrityError"
  | .ok _ => false

/-- Rows are read as they stand, ids are new, a unique index refuses without effect, and the row count of a claim is
that of its UPDATE; every other answer is left open. -/
def Allowed : Event WorkspaceSig → Prop
  | ⟨.uuid4, .ok id, _, _⟩ => w.issued id = none ∧ w.rows.get id = none
  | ⟨.getExecution id, .ok row, _, _⟩ => row = w.rows.get id
  | ⟨.getExecutionForUser id userId, .ok row, _, _⟩ => row = (w.rows.get id).filter (·.userId = userId)
  | ⟨.findExecutionByKey workspaceId key, .ok row, _, _⟩ => row = w.rows.findByKey workspaceId key
  | ⟨.listActiveExecutions workspaceId, .ok rows, _, _⟩ => rows = w.rows.listActive workspaceId
  | ⟨.insertExecution row, out, took, _⟩ =>
    (took = true → w.rows.get row.executionId = none ∧ w.rows.KeyFree row) ∧ (refused out = true → took = false)
  | ⟨.claimExecution id _ _, .ok claimed, _, _⟩ => claimed = decide (w.Claimable id)
  | _ => True

instance decidableAllowed (ev : Event WorkspaceSig) : Decidable (w.Allowed ev) := by
  unfold Allowed
  split <;> infer_instance

end ExecutionWorld

/-- Deliveries, submits and cancels over the rows. -/
def executionSystem (ctx : WorkspaceContext) : Sys WorkspaceSig where
  World := ExecutionWorld
  Tag := ExecutionParty
  spawn w _ party p w' := w' = w ∧ p = party.program ctx
  Allowed w _ _ ev := w.Allowed ev
  apply w i party ev := w.apply i party ev

/-- Nothing runs, and nothing has been counted; the rows are any that are indexed. -/
def ExecutionStart {ctx : WorkspaceContext} (c : (executionSystem ctx).Config) : Prop :=
  (∀ i, c.threads i = none) ∧ ∃ rows : ExecutionRows, rows.Indexed ∧ c.world = ({ rows := rows } : ExecutionWorld)

end System

/-! ## What a thread asks -/

section Monitor

/-- What a thread knows: the execution it last read alive, the one it claimed and has not run, the id it was issued and
has not inserted, the one it inserted and has not published, and the one it may answer a submit with. -/
structure Hold where
  alive : Option String := none
  won : Option String := none
  fresh : Option String := none
  due : Option String := none
  standing : Option String := none

def holdStep (g : Hold) : Event WorkspaceSig → Hold
  | ⟨.uuid4, .ok id, _, _⟩ => { g with fresh := some id }
  | ⟨.getExecution id, .ok (some row), _, _⟩ => { g with alive := if row.isTerminal then none else some id }
  | ⟨.getExecutionForUser id _, .ok (some row), _, _⟩ => { g with alive := if row.isTerminal then none else some id }
  | ⟨.findExecutionByKey _ _, .ok (some row), _, _⟩ => { g with standing := some row.executionId }
  | ⟨.insertExecution row, .ok _, _, _⟩ =>
    { g with alive := some row.executionId, fresh := none, due := some row.executionId, standing := some row.executionId }
  | ⟨.insertExecution _, .error _, true, _⟩ => { g with fresh := none }
  | ⟨.claimExecution id _ _, .ok true, _, _⟩ => { g with won := some id }
  | ⟨.provider (.execute _ _), _, _, _⟩ => { g with won := none }
  | ⟨.publish _, _, _, _⟩ => { g with due := none }
  | _ => g

/-- A thread inserts QUEUED rows under a new id and its own key, claims the execution it is about, writes an end of the
execution it has read alive, runs a program it has claimed, publishes what it has inserted, and answers with the
execution of its key. -/
def HoldPermitted (party : ExecutionParty) (g : Hold) : WorkspaceOp → Prop
  | .findExecutionByKey workspaceId key => party.keyed = some (workspaceId, key)
  | .insertExecution row => row.status = .queued ∧ g.fresh = some row.executionId ∧
      ∀ workspaceId key, party.keyed = some (workspaceId, key) →
        row.workspaceId = workspaceId ∧ row.idempotencyKey = some key
  | .claimExecution id _ _ => party.target = some id
  | .updateExecution e => g.alive = some e.executionId ∧ e.isTerminal = true
  | .provider (.execute _ _) => g.won ≠ none
  | .publish message => g.due ≠ none ∧ message.executionId = g.due
  | .respond e => party.keyed ≠ none → g.standing = some e.executionId
  | _ => True

def executionMonitor (party : ExecutionParty) : Monitor WorkspaceSig Hold where
  pre := HoldPermitted party
  rely g ev := match ev with
    | ⟨.getExecution id, .ok none, _, _⟩ => g.alive ≠ some id
    | ⟨.getExecution id, .ok (some row), _, _⟩ => row.executionId = id
    | ⟨.getExecutionForUser id _, .ok (some row), _, _⟩ => row.executionId = id
    | ⟨.findExecutionByKey _ _, .ok (some row), _, _⟩ => g.fresh ≠ some row.executionId
    | ⟨.insertExecution _, out, took, _⟩ => ExecutionWorld.refused out = true → took = false
    | _ => True
  step := holdStep

variable {ctx : WorkspaceContext} {party : ExecutionParty} {g : Hold} {execution : Execution} {providerRef : String}

/-- The calls that leave all a thread knows but its new id. -/
def IsAside : WorkspaceOp → Prop
  | .insertExecution _ | .getExecution _ | .getExecutionForUser _ _ | .findExecutionByKey _ _ | .claimExecution _ _ _
  | .updateExecution _ | .provider (.execute _ _) | .publish _ | .respond _ => False
  | _ => True

theorem aside_of_start {op : WorkspaceOp} (h : IsStartOp op) : IsAside op := by
  cases op with
  | provider op =>
    cases op with
    | execute _ _ => exact h
    | _ => trivial
  | insertExecution _ => exact h
  | getExecution _ => exact h
  | getExecutionForUser _ _ => exact h
  | findExecutionByKey _ _ => exact h
  | claimExecution _ _ _ => exact h
  | updateExecution _ => exact h
  | publish _ => exact h
  | respond _ => exact h
  | _ => trivial

theorem aside_of_artifact {op : WorkspaceOp} (h : IsArtifactOp op) : IsAside op := by
  cases op with
  | provider op =>
    cases op with
    | execute _ _ => exact h
    | _ => trivial
  | upload _ _ => trivial
  | _ => exact h.elim

/-- The same but for the new id. -/
def Hold.Alike (g g' : Hold) : Prop :=
  g'.alive = g.alive ∧ g'.won = g.won ∧ g'.due = g.due ∧ g'.standing = g.standing

theorem hold_aside {α : Type} {p : WorkspaceAct α} (hp : p.Only IsAside) :
    wpe (executionMonitor party) p (fun _ g' => g.Alike g') (fun _ g' => g.Alike g') g := by
  refine wpe_of_only_inv (R := fun g' => g.Alike g') hp (fun g' op _ h => ?_) (fun g' ev hg h _ => ?_)
    (fun _ _ h => h) (fun _ _ h => h) ⟨rfl, rfl, rfl, rfl⟩
  · cases op with
    | provider op =>
      cases op with
      | execute _ _ => exact h.elim
      | _ => trivial
    | insertExecution _ => exact h.elim
    | claimExecution _ _ _ => exact h.elim
    | findExecutionByKey _ _ => exact h.elim
    | updateExecution _ => exact h.elim
    | publish _ => exact h.elim
    | respond _ => exact h.elim
    | _ => trivial
  · obtain ⟨op, out, took, hk⟩ := ev
    cases op with
    | uuid4 =>
      rcases out with e | id
      · exact hg
      · exact hg
    | provider op =>
      cases op with
      | execute _ _ => exact h.elim
      | _ => exact hg
    | insertExecution _ => exact h.elim
    | getExecution _ => exact h.elim
    | getExecutionForUser _ _ => exact h.elim
    | findExecutionByKey _ _ => exact h.elim
    | claimExecution _ _ _ => exact h.elim
    | updateExecution _ => exact h.elim
    | publish _ => exact h.elim
    | respond _ => exact h.elim
    | _ => exact hg

/-- Calls that leave what a thread knows, before the rest. -/
theorem wpe_aside {α β : Type} {p : WorkspaceAct α} {f : α → WorkspaceAct β} {Q : β → Hold → Prop} (hp : p.Only IsAside)
    (hf : ∀ a g', g.Alike g' → wpe (executionMonitor party) (f a) Q (fun _ _ => True) g') :
    wpe (executionMonitor party) (p >>= f) Q (fun _ _ => True) g := by
  rw [wpe_bind]
  exact wpe_mono (hold_aside hp) hf fun _ _ _ => trivial

theorem write_end {β : Type} {f : Bool → WorkspaceAct β} {settled : Execution} {Q : β → Hold → Prop}
    (hg : g.alive = some execution.executionId) (hend : execution.EndsAs settled)
    (hf : ∀ b, wpe (executionMonitor party) (f b) Q (fun _ _ => True) g) :
    wpe (executionMonitor party) (port (.updateExecution settled) >>= f) Q (fun _ _ => True) g := by
  rw [wpe_bind]
  refine wpe_ask.2 ⟨⟨?_, hend.2⟩, fun b _ => hf b, fun _ _ _ _ => trivial⟩
  rw [hend.1, hg]

/-! ### A delivery -/

theorem persistFailure_spec {error : String} (hg : g.alive = some execution.executionId) :
    wpe (executionMonitor party) (persistFailure execution error) (fun _ _ => True) (fun _ _ => True) g := by
  refine wpe_aside (only_ask trivial) fun now g' hg' => ?_
  rw [wpe_bind]
  refine wpe_ofExcept (fun failed h => ?_) fun _ _ => trivial
  exact write_end (hg'.1.trans hg) (fail_ok h) fun _ => trivial

theorem settle_spec {outcome : ExecutionOutcome} :
    wpe (executionMonitor party) (settle ctx execution providerRef outcome)
      (fun settled g' => g.Alike g' ∧ execution.EndsAs settled) (fun _ _ => True) g := by
  unfold settle
  split_ifs
  · refine wpe_aside (only_ask trivial) fun now g' hg' => ?_
    exact wpe_ofExcept (fun settled h => ⟨hg', timeOut_ok h⟩) fun _ _ => trivial
  · split
    · refine wpe_aside (only_ask trivial) fun now g' hg' => ?_
      exact wpe_ofExcept (fun settled h => ⟨hg', fail_ok h⟩) fun _ _ => trivial
    · rw [wpe_bind]
      refine wpe_mono (hold_aside (only_mono (fun _ => aside_of_artifact) (collectArtifacts_only ctx))) ?_
        fun _ _ _ => trivial
      intro artifacts g' hg'
      rw [wpe_bind]
      refine wpe_mono (hold_aside (only_ask trivial)) ?_ fun _ _ _ => trivial
      intro now g'' hg''
      refine wpe_ofExcept (fun settled h => ⟨?_, succeed_ok h⟩) fun _ _ => trivial
      exact ⟨hg''.1.trans hg'.1, hg''.2.1.trans hg'.2.1, hg''.2.2.1.trans hg'.2.2.1, hg''.2.2.2.trans hg'.2.2.2⟩

theorem recordOutcome_spec {outcome : ExecutionOutcome} (hg : g.alive = some execution.executionId) :
    wpe (executionMonitor party) (recordOutcome ctx execution providerRef outcome) (fun _ _ => True) (fun _ _ => True)
      g := by
  unfold recordOutcome
  rw [wpe_bind]
  refine wpe_ask.2 ⟨trivial, fun latest hrely => ?_, fun _ _ _ _ => trivial⟩
  rcases latest with _ | row
  · exact absurd hg hrely
  · by_cases hend : row.isTerminal = true
    · rw [if_pos (by simp [hend])]
      trivial
    · rw [if_neg (by simp [hend]), wpe_bind]
      have halive : (holdStep g (.done (.getExecution execution.executionId) (.ok (some row)))).alive =
          some execution.executionId := by
        simp [holdStep, Event.done, hend]
      refine wpe_mono settle_spec ?_ fun _ _ _ => trivial
      rintro settled g' ⟨hg', hsettled⟩
      exact write_end (hg'.1.trans halive) hsettled fun _ => trivial

/-- A claimed execution is run once, and its outcome is written as an end of it. -/
theorem perform_spec (hg : g.alive = some execution.executionId) (hwon : g.won ≠ none) :
    wpe (executionMonitor party) (perform ctx execution providerRef) (fun _ _ => True) (fun _ _ => True) g := by
  unfold perform tryExecute catchProvider
  simp only [wpe_bind, wpe_tryCatch]
  refine wpe_ask.2 ⟨hwon, fun outcome _ => ?_, fun e took hk _ => ?_⟩
  · rw [wpe_pure]
    exact recordOutcome_spec hg
  · split_ifs
    · rw [wpe_pure]
      exact persistFailure_spec hg
    · trivial

theorem claimAndRun_spec {runtime : WorkspaceRuntime} (hg : g.alive = some execution.executionId)
    (htarget : party.target = some execution.executionId) :
    wpe (executionMonitor party) (claimAndRun ctx execution runtime providerRef) (fun _ _ => True) (fun _ _ => True)
      g := by
  refine wpe_aside (only_ask trivial) fun now g' hg' => ?_
  rw [wpe_bind]
  refine wpe_ask.2 ⟨htarget, fun claimed _ => ?_, fun _ _ _ _ => trivial⟩
  cases claimed with
  | false => exact trivial
  | true =>
    refine wpe_aside (only_ask trivial) fun now' g'' hg'' => ?_
    rw [wpe_bind]
    refine wpe_ofExcept (fun started h => ?_) fun _ _ => trivial
    refine perform_spec ?_ ?_
    · rw [hg''.1, start_ok h]
      exact hg'.1.trans hg
    · rw [hg''.2.1]
      exact Option.some_ne_none _

theorem runExecution_spec (hg : g.alive = some execution.executionId)
    (htarget : party.target = some execution.executionId) :
    wpe (executionMonitor party) (runExecution ctx execution) (fun _ _ => True) (fun _ _ => True) g := by
  refine wpe_aside (only_ask trivial) fun workspace g' hg' => ?_
  rcases workspace with _ | workspace
  · exact persistFailure_spec (hg'.1.trans hg)
  · refine wpe_aside (only_mono (fun _ => aside_of_start) startRuntime_only) fun started g'' hg'' => ?_
    split
    · exact persistFailure_spec (hg''.1.trans (hg'.1.trans hg))
    · exact claimAndRun_spec (hg''.1.trans (hg'.1.trans hg)) htarget

theorem handleExecution_spec {message : WorkspaceWorkMessage} (htarget : party.target = truthy message.executionId) :
    wpe (executionMonitor party) (handleExecution ctx message) (fun _ _ => True) (fun _ _ => True) {} := by
  unfold handleExecution
  split
  · trivial
  · rename_i executionId hid
    rw [hid] at htarget
    rw [wpe_bind]
    refine wpe_ask.2 ⟨trivial, fun found hrely => ?_, fun _ _ _ _ => trivial⟩
    rcases found with _ | execution
    · exact trivial
    · have hexec : execution.executionId = executionId := hrely
      dsimp only
      by_cases hend : execution.isTerminal = true
      · rw [if_pos hend]
        trivial
      · rw [if_neg hend]
        refine runExecution_spec ?_ ?_
        · simp [executionMonitor, holdStep, Event.done, hend, hexec]
        · rw [htarget, hexec]

/-! ### A cancel and a submit -/

theorem cancel_spec {executionId : String} {userId : ℤ} :
    wpe (executionMonitor party) (cancel executionId userId) (fun _ _ => True) (fun _ _ => True) g := by
  unfold cancel
  rw [wpe_bind]
  refine wpe_ask.2 ⟨trivial, fun found hrely => ?_, fun _ _ _ _ => trivial⟩
  rcases found with _ | execution
  · exact trivial
  · have hexec : execution.executionId = executionId := hrely
    refine wpe_aside (only_ask trivial) fun now g' hg' => ?_
    rw [wpe_bind]
    refine wpe_ofExcept (fun cancelled h => ?_) fun _ _ => trivial
    rcases cancelled with _ | cancelled
    · exact trivial
    · have hend : execution.isTerminal = false := by
        by_contra hend
        rw [Execution.cancel, if_pos (by simpa using hend)] at h
        cases h
      refine write_end ?_ (cancel_ok h) fun _ => trivial
      rw [hg'.1]
      simp [executionMonitor, holdStep, Event.done, hend, hexec]

theorem enqueue_spec {workspace : Workspace} (halive : g.alive = some execution.executionId)
    (hdue : g.due = some execution.executionId) (hstanding : g.standing = some execution.executionId) :
    wpe (executionMonitor party) (enqueue workspace execution)
      (fun answer g' => g'.standing = some answer.executionId) (fun _ _ => True) g := by
  refine wpe_aside (only_ask trivial) fun now g₁ h₁ => ?_
  refine wpe_aside (only_ask trivial) fun _ g₂ h₂ => ?_
  have hdue₂ : g₂.due = some execution.executionId := h₂.2.2.1.trans (h₁.2.2.1.trans hdue)
  have hstanding₂ : g₂.standing = some execution.executionId := h₂.2.2.2.trans (h₁.2.2.2.trans hstanding)
  rw [wpe_bind, wpe_tryCatch]
  refine wpe_ask.2 ⟨⟨?_, ?_⟩, fun _ _ => hstanding₂, fun e took hk _ => ?_⟩
  · rw [hdue₂]
    exact Option.some_ne_none _
  · rw [hdue₂]
    rfl
  · refine wpe_aside (only_ask trivial) fun now' g₃ h₃ => ?_
    rw [wpe_bind]
    refine wpe_ofExcept (fun failed h => ?_) fun _ _ => trivial
    have halive₃ : g₃.alive = some execution.executionId := h₃.1.trans (h₂.1.trans (h₁.1.trans halive))
    exact write_end halive₃ (fail_ok h) fun _ => trivial

theorem createExecution_spec (hfresh : g.fresh = some execution.executionId) (hq : execution.status = .queued)
    (hkey : party.keyed = execution.idempotencyKey.map fun key => (execution.workspaceId, key)) :
    wpe (executionMonitor party) (createExecution execution) (fun stored g' =>
      (stored = execution ∧ g'.alive = some execution.executionId ∧ g'.due = some execution.executionId ∧
        g'.standing = some execution.executionId) ∨
      (stored.executionId ≠ execution.executionId ∧ g'.standing = some stored.executionId)) (fun _ _ => True) g := by
  unfold createExecution
  simp only [wpe_tryCatch, wpe_bind]
  refine wpe_ask.2 ⟨⟨hq, hfresh, fun workspaceId key hk => ?_⟩, fun _ _ => ?_, fun e took hk hrely => ?_⟩
  · rw [hkey] at hk
    obtain ⟨key', hkey', he⟩ := Option.map_eq_some_iff.1 hk
    cases he
    exact ⟨rfl, hkey'⟩
  · rw [wpe_pure]
    exact .inl ⟨rfl, rfl, rfl, rfl⟩
  · split
    · trivial
    · rename_i key hkey'
      split_ifs with he
      · obtain rfl : took = false := hrely (by simpa [ExecutionWorld.refused] using he)
        rw [wpe_bind]
        refine wpe_ask.2 ⟨?_, fun found hfound => ?_, fun _ _ _ _ => trivial⟩
        · show party.keyed = _
          rw [hkey, hkey']
          rfl
        · rcases found with _ | existing
          · trivial
          · refine .inr ⟨fun heq => ?_, rfl⟩
            have hne : g.fresh ≠ some existing.executionId := hfound
            rw [heq] at hne
            exact hne hfresh
      · trivial

theorem submitNew_spec {req : SubmitRequest} {workspace : Workspace} {source : String}
    (hparty : party = .submitter req) :
    wpe (executionMonitor party) (submitNew ctx req workspace source req.key)
      (fun answer g' => g'.standing = some answer.executionId) (fun _ _ => True) g := by
  refine wpe_aside (only_ask trivial) fun active g₁ h₁ => ?_
  split_ifs
  · trivial
  · rw [wpe_bind]
    refine wpe_ask.2 ⟨trivial, fun executionId _ => ?_, fun _ _ _ _ => trivial⟩
    rw [wpe_bind]
    refine wpe_mono (createExecution_spec rfl rfl ?_) (fun stored g₂ hstored => ?_) fun _ _ _ => trivial
    · rw [hparty]
      rfl
    · rcases hstored with ⟨rfl, halive, hdue, hstanding⟩ | ⟨hne, hstanding⟩
      · rw [if_neg (not_not.2 rfl)]
        exact enqueue_spec halive hdue hstanding
      · rw [if_pos hne]
        exact hstanding

theorem submit_spec {req : SubmitRequest} (hparty : party = .submitter req) :
    wpe (executionMonitor party) (submit ctx req)
      (fun answer g' => party.keyed ≠ none → g'.standing = some answer.executionId) (fun _ _ => True) g := by
  refine wpe_aside (only_mono (fun _ => aside_of_start) requireUsable_only) fun workspace g₁ h₁ => ?_
  rw [wpe_bind]
  refine wpe_ofExcept (fun source _ => ?_) fun _ _ => trivial
  refine wpe_aside (only_mono (fun _ h => aside_of_start (start_of_container h)) checkPolicy_only) fun _ g₂ h₂ => ?_
  have hnew : ∀ key, req.key = key → ∀ g₃, wpe (executionMonitor party) (submitNew ctx req workspace source key)
      (fun answer g' => party.keyed ≠ none → g'.standing = some answer.executionId) (fun _ _ => True) g₃ := by
    rintro key rfl g₃
    exact wpe_mono (submitNew_spec hparty) (fun _ _ h _ => h) fun _ _ h => h
  rcases hkey : req.key with _ | key
  · exact hnew none hkey g₂
  · simp only [wpe_bind]
    refine wpe_ask.2 ⟨?_, fun found _ => ?_, fun _ _ _ _ => trivial⟩
    · show party.keyed = _
      rw [hparty]
      simp [ExecutionParty.keyed, hkey]
    · rcases found with _ | existing
      · exact hnew (some key) hkey _
      · exact fun _ => rfl

theorem submitRoute_spec {req : SubmitRequest} (hparty : party = .submitter req) :
    wpe (executionMonitor party) (submitRoute ctx req) (fun _ _ => True) (fun _ _ => True) {} := by
  unfold submitRoute
  rw [wpe_bind]
  refine wpe_mono (submit_spec hparty) (fun answer g' h => ?_) fun _ _ _ => trivial
  exact wpe_ask.2 ⟨h, fun _ _ => trivial, fun _ _ _ _ => trivial⟩

/-- **What a thread may ask**, it asks only that, whatever is answered. -/
theorem program_spec (party : ExecutionParty) :
    wp (executionMonitor party) (party.program ctx) (fun _ _ => True) {} := by
  cases party with
  | handler message => exact wp_thread_of_wpe (R := fun _ => True) (handleExecution_spec rfl)
  | submitter req => exact wp_thread_of_wpe (R := fun _ => True) (submitRoute_spec rfl)
  | canceller executionId userId => exact wp_thread_of_wpe (R := fun _ => True) cancel_spec

end Monitor

/-! ## What an exchange keeps -/

section Invariant

/-- The rows are indexed; a thread has seen at most the ends there are; an ended execution has a row that
says so; what was claimed, or cancelled before any claim, is not QUEUED; only what was claimed is run, and once; what was
published, or answered, has its row, and is published once. -/
structure ExecutionInv (w : ExecutionWorld) : Prop where
  indexed : w.rows.Indexed
  seen_le : ∀ i id, w.seen i id ≤ w.ends id
  ended : ∀ id, 0 < w.ends id → ∃ row, w.rows.get id = some row ∧ row.isTerminal = true
  owned : ∀ id, w.owner id ≠ none → ∃ row, w.rows.get id = some row ∧ row.status ≠ .queued
  runs_le : ∀ id, w.runs id ≤ 1
  runs_owned : ∀ id, w.owner id = none → w.runs id = 0
  early : ∀ id, w.early id = true → w.owner id = none ∧ ∃ row, w.rows.get id = some row ∧ row.status ≠ .queued
  published : ∀ id ∈ w.published, (w.rows.get id).isSome = true
  nodup : w.published.Nodup
  answers : ∀ workspaceId key id, (workspaceId, key, id) ∈ w.answers →
    ∃ row, w.rows.get id = some row ∧ row.workspaceId = workspaceId ∧ row.idempotencyKey = some key

/-- What a thread knows is so. -/
structure Hold.Valid (g : Hold) (w : ExecutionWorld) (i : ℕ) (party : ExecutionParty) : Prop where
  alive : ∀ id, g.alive = some id →
    ∃ row, w.rows.get id = some row ∧ (w.ends id = w.seen i id → row.isTerminal = false)
  won : ∀ id, g.won = some id → w.owner id = some i ∧ w.runs id = 0 ∧ party.target = some id
  fresh : ∀ id, g.fresh = some id → w.issued id = some i ∧ w.rows.get id = none
  due : ∀ id, g.due = some id → w.issued id = some i ∧ (w.rows.get id).isSome = true ∧ id ∉ w.published
  standing : ∀ id, g.standing = some id → ∃ row, w.rows.get id = some row ∧
    ∀ workspaceId key, party.keyed = some (workspaceId, key) →
      row.workspaceId = workspaceId ∧ row.idempotencyKey = some key

/-- What an exchange of thread `i` keeps: the invariant, what it knows after it, and what any other thread knows. -/
structure ExchangeKeeps (w w' : ExecutionWorld) (i : ℕ) (party : ExecutionParty) (g' : Hold) : Prop where
  inv : ExecutionInv w'
  self : g'.Valid w' i party
  other : ∀ j party' g'', j ≠ i → Hold.Valid g'' w j party' → Hold.Valid g'' w' j party'

variable {w : ExecutionWorld} {i j : ℕ} {party : ExecutionParty} {g : Hold} {id : String} {rows' : ExecutionRows}

theorem valid_nothing : ({} : Hold).Valid w i party :=
  ⟨fun _ h => (by cases h), fun _ h => (by cases h), fun _ h => (by cases h), fun _ h => (by cases h),
    fun _ h => (by cases h)⟩

def RowsKept (rows rows' : ExecutionRows) : Prop :=
  ∀ id row, rows.get id = some row → ∃ row', rows'.get id = some row' ∧ row.Follows row'

theorem isSome_of_kept (hkept : RowsKept w.rows rows') (h : (w.rows.get id).isSome = true) :
    (rows'.get id).isSome = true := by
  obtain ⟨row, hrow⟩ := Option.isSome_iff_exists.1 h
  obtain ⟨row', hrow', -⟩ := hkept id row hrow
  rw [hrow']
  rfl

theorem left_of_kept (hkept : RowsKept w.rows rows') (h : ∃ row, w.rows.get id = some row ∧ row.status ≠ .queued) :
    ∃ row, rows'.get id = some row ∧ row.status ≠ .queued := by
  obtain ⟨row, hrow, hq⟩ := h
  obtain ⟨row', hrow', hf⟩ := hkept id row hrow
  exact ⟨row', hrow', hf.left_queue hq⟩

theorem inv_of_kept (hI : ExecutionInv w) (hkept : RowsKept w.rows rows') (hindexed : rows'.Indexed) :
    ExecutionInv { w with rows := rows' } := by
  refine ⟨hindexed, hI.seen_le, fun id h => ?_, fun id h => left_of_kept hkept (hI.owned id h), hI.runs_le, hI.runs_owned,
    fun id h => ⟨(hI.early id h).1, left_of_kept hkept (hI.early id h).2⟩,
    fun id h => isSome_of_kept hkept (hI.published id h), hI.nodup, fun workspaceId key id h => ?_⟩
  · obtain ⟨row, hrow, hend⟩ := hI.ended id h
    obtain ⟨row', hrow', hf⟩ := hkept id row hrow
    exact ⟨row', hrow', hf.ended hend⟩
  · obtain ⟨row, hrow, hw, hk⟩ := hI.answers workspaceId key id h
    obtain ⟨row', hrow', hf⟩ := hkept id row hrow
    exact ⟨row', hrow', hf.workspaceId.trans hw, hf.idempotencyKey.trans hk⟩

theorem standing_of_kept (hkept : RowsKept w.rows rows') (hv : g.Valid w i party) (id : String)
    (h : g.standing = some id) : ∃ row, rows'.get id = some row ∧
      ∀ workspaceId key, party.keyed = some (workspaceId, key) →
        row.workspaceId = workspaceId ∧ row.idempotencyKey = some key := by
  obtain ⟨row, hrow, hk⟩ := hv.standing id h
  obtain ⟨row', hrow', hf⟩ := hkept id row hrow
  refine ⟨row', hrow', fun workspaceId key hkeyed => ?_⟩
  rw [hf.workspaceId, hf.idempotencyKey]
  exact hk workspaceId key hkeyed

theorem keeps_nothing (hI : ExecutionInv w) (hv : g.Valid w i party) : ExchangeKeeps w w i party g :=
  ⟨hI, hv, fun _ _ _ _ h => h⟩

theorem keeps_uuid4 (hI : ExecutionInv w) (hv : g.Valid w i party) (hnew : w.issued id = none ∧ w.rows.get id = none) :
    ExchangeKeeps w { w with issued := Function.update w.issued id (some i) } i party { g with fresh := some id } := by
  have hissued : ∀ id' k, w.issued id' = some k → Function.update w.issued id (some i) id' = some k := by
    intro id' k h
    rw [Function.update_of_ne]
    · exact h
    · rintro rfl
      rw [hnew.1] at h
      cases h
  refine ⟨⟨hI.indexed, hI.seen_le, hI.ended, hI.owned, hI.runs_le, hI.runs_owned, hI.early, hI.published, hI.nodup,
    hI.answers⟩, ⟨hv.alive, hv.won, fun id' h => ?_, fun id' h => ?_, hv.standing⟩, fun j party' g' hji hv' => ?_⟩
  · cases h
    exact ⟨Function.update_self .., hnew.2⟩
  · exact ⟨hissued id' i (hv.due id' h).1, (hv.due id' h).2⟩
  · exact ⟨hv'.alive, hv'.won, fun id' h => ⟨hissued id' j (hv'.fresh id' h).1, (hv'.fresh id' h).2⟩,
      fun id' h => ⟨hissued id' j (hv'.due id' h).1, (hv'.due id' h).2⟩, hv'.standing⟩

theorem seen_look (k : ℕ) (id' : String) :
    (w.look i id).seen k id' = if k = i ∧ id' = id then w.ends id else w.seen k id' := by
  unfold ExecutionWorld.look
  by_cases hk : k = i
  · subst hk
    by_cases hid : id' = id
    · subst hid
      simp
    · simp [hid]
  · simp [hk]

theorem keeps_look (id : String) (hI : ExecutionInv w) (hv : g.Valid w i party)
    (halive : ∀ id', g.alive = some id' → id' = id → ∃ row, w.rows.get id = some row ∧ row.isTerminal = false) :
    ExchangeKeeps w (w.look i id) i party g := by
  refine ⟨⟨hI.indexed, fun k id' => ?_, hI.ended, hI.owned, hI.runs_le, hI.runs_owned, hI.early, hI.published, hI.nodup,
    hI.answers⟩, ⟨fun id' h => ?_, hv.won, hv.fresh, hv.due, hv.standing⟩, fun j party' g' hji hv' =>
      ⟨fun id' h => ?_, hv'.won, hv'.fresh, hv'.due, hv'.standing⟩⟩
  · rw [seen_look]
    split_ifs with h
    · rw [h.2]
      exact Nat.le_refl _
    · exact hI.seen_le k id'
  · by_cases hid : id' = id
    · obtain ⟨row, hrow, hend⟩ := halive id' h hid
      rw [hid]
      exact ⟨row, hrow, fun _ => hend⟩
    · obtain ⟨row, hrow, hend⟩ := hv.alive id' h
      refine ⟨row, hrow, fun hs => hend ?_⟩
      rw [seen_look, if_neg (fun h => hid h.2)] at hs
      exact hs
  · obtain ⟨row, hrow, hend⟩ := hv'.alive id' h
    refine ⟨row, hrow, fun hs => hend ?_⟩
    rw [seen_look, if_neg (fun h => hji h.1)] at hs
    exact hs

theorem keeps_insert {row : Execution} {out : Except WorkError Unit} {h : ∀ a, out = .ok a → true = true}
    (hI : ExecutionInv w) (hv : g.Valid w i party) (hpre : HoldPermitted party g (.insertExecution row))
    (hnone : w.rows.get row.executionId = none) (hfree : w.rows.KeyFree row) :
    ExchangeKeeps w (({ w with rows := w.rows.insert row } : ExecutionWorld).look i row.executionId) i party
      (holdStep g ⟨.insertExecution row, out, true, h⟩) := by
  obtain ⟨hq, hfresh, hkey⟩ := hpre
  have hkept : RowsKept w.rows (w.rows.insert row) := fun id old hold => ⟨old, get_insert_old hold, follows_refl⟩
  have hget : (w.rows.insert row).get row.executionId = some row := get_insert_new hnone
  have hend : row.isTerminal = false := by
    rw [Execution.isTerminal, hq]
    rfl
  have hinv : ExecutionInv { w with rows := w.rows.insert row } := inv_of_kept hI hkept (indexed_insert hI.indexed hnone hfree)
  have hunpublished : row.executionId ∉ w.published := by
    intro hin
    have hsome := hI.published _ hin
    rw [hnone] at hsome
    cases hsome
  have hkeeps : Hold.Valid (holdStep g ⟨.insertExecution row, out, true, h⟩)
      ({ w with rows := w.rows.insert row } : ExecutionWorld) i party := by
    have halive : ∀ id, g.alive = some id → ∃ row', (w.rows.insert row).get id = some row' ∧
        (w.ends id = w.seen i id → row'.isTerminal = false) := by
      intro id hid
      obtain ⟨old, hold, hend'⟩ := hv.alive id hid
      exact ⟨old, get_insert_old hold, hend'⟩
    rcases out with e | u
    · exact ⟨halive, hv.won, fun _ h => (by cases h),
        fun id hid => ⟨(hv.due id hid).1, isSome_of_kept hkept (hv.due id hid).2.1, (hv.due id hid).2.2⟩,
        fun id hid => standing_of_kept hkept hv id hid⟩
    · refine ⟨fun id hid => ?_, hv.won, fun _ h => (by cases h), fun id hid => ?_, fun id hid => ?_⟩
      · cases hid
        exact ⟨row, hget, fun _ => hend⟩
      · cases hid
        exact ⟨(hv.fresh _ hfresh).1, by rw [hget]; rfl, hunpublished⟩
      · cases hid
        exact ⟨row, hget, hkey⟩
  have hlook := keeps_look row.executionId hinv hkeeps fun _ _ _ => ⟨row, hget, hend⟩
  refine ⟨hlook.inv, hlook.self, fun j party' g' hji hv' => hlook.other j party' g' hji ?_⟩
  refine ⟨fun id hid => ?_, hv'.won, fun id hid => ⟨(hv'.fresh id hid).1, ?_⟩,
    fun id hid => ⟨(hv'.due id hid).1, isSome_of_kept hkept (hv'.due id hid).2.1, (hv'.due id hid).2.2⟩,
    standing_of_kept hkept hv'⟩
  · obtain ⟨old, hold, hend'⟩ := hv'.alive id hid
    exact ⟨old, get_insert_old hold, hend'⟩
  · -- the id was issued to this thread only
    have hne : row.executionId ≠ id := by
      rintro rfl
      have hi := (hv.fresh _ hfresh).1
      rw [(hv'.fresh _ hid).1] at hi
      exact hji (Option.some.inj hi)
    show (w.rows.insert row).get id = none
    rw [get_insert_other hne]
    exact (hv'.fresh id hid).2

theorem owner_claim {id' runtimeId : String} {startedAt : ℤ} : (w.claim i id runtimeId startedAt).owner id' =
    if id' = id ∧ w.Claimable id then some i else w.owner id' := by
  unfold ExecutionWorld.claim
  by_cases hc : w.Claimable id
  · by_cases hid : id' = id
    · subst hid
      simp [hc]
    · simp [hc, hid]
  · simp [hc]

/-- A row that can be claimed is owned by nobody. -/
theorem unowned_of_claimable (hI : ExecutionInv w) (hc : w.Claimable id) : w.owner id = none := by
  by_contra hne
  obtain ⟨row, hrow, hq⟩ := hI.owned id hne
  rw [ExecutionWorld.Claimable, hrow] at hc
  exact hq (Option.some.inj hc)

/-- A claim moves a QUEUED row, and the thread owns it. -/
theorem keeps_claim (runtimeId : String) (startedAt : ℤ) (hI : ExecutionInv w) (hv : g.Valid w i party)
    (hpre : HoldPermitted party g (.claimExecution id runtimeId startedAt)) :
    ExchangeKeeps w (w.claim i id runtimeId startedAt) i party g ∧
      (w.Claimable id → Hold.Valid { g with won := some id } (w.claim i id runtimeId startedAt) i party) := by
  have hfollows : w.rows.Follows (w.rows.claim id runtimeId startedAt) := follows_claimRow
  have hkept : RowsKept w.rows (w.rows.claim id runtimeId startedAt) := hfollows.get
  have hbase := inv_of_kept hI hkept (hfollows.indexed hI.indexed)
  -- who owned an execution owns it still: its row is no longer claimable
  have howner : ∀ id' k, w.owner id' = some k → (w.claim i id runtimeId startedAt).owner id' = some k := by
    intro id' k hk
    rw [owner_claim, if_neg]
    · exact hk
    · rintro ⟨rfl, hc⟩
      rw [unowned_of_claimable hI hc] at hk
      cases hk
  have hclaimed : w.Claimable id → ∃ row, (w.rows.claim id runtimeId startedAt).get id = some row ∧
      row.status ≠ .queued := by
    intro hc
    obtain ⟨row, hrow, hq⟩ := Option.map_eq_some_iff.1 hc
    refine ⟨row.claimed runtimeId startedAt, ?_, by simp [Execution.claimed]⟩
    rw [get_claim, if_pos rfl, hrow, Option.map_some, if_pos hq]
  have halive : ∀ k id' row, w.rows.get id' = some row → (w.ends id' = w.seen k id' → row.isTerminal = false) →
      ∃ row', (w.rows.claim id runtimeId startedAt).get id' = some row' ∧
        (w.ends id' = w.seen k id' → row'.isTerminal = false) := by
    intro k id' row hrow hend
    rw [get_claim, hrow]
    by_cases hid : id' = id
    · rw [if_pos hid]
      refine ⟨_, rfl, fun hs => ?_⟩
      dsimp only
      by_cases hq : row.status = .queued
      · rw [if_pos hq]
        rfl
      · rw [if_neg hq]
        exact hend hs
    · rw [if_neg hid]
      exact ⟨row, rfl, hend⟩
  have hnone : ∀ id', w.rows.get id' = none → (w.rows.claim id runtimeId startedAt).get id' = none := by
    intro id' h
    rw [get_claim, h]
    split_ifs <;> rfl
  have hvalid : ∀ k party' g', Hold.Valid g' w k party' → Hold.Valid g' (w.claim i id runtimeId startedAt) k party' := by
    intro k party' g' hv'
    refine ⟨fun id' h => ?_, fun id' h => ⟨howner id' k (hv'.won id' h).1, (hv'.won id' h).2⟩,
      fun id' h => ⟨(hv'.fresh id' h).1, hnone id' (hv'.fresh id' h).2⟩,
      fun id' h => ⟨(hv'.due id' h).1, isSome_of_kept hkept (hv'.due id' h).2.1, (hv'.due id' h).2.2⟩,
      standing_of_kept hkept hv'⟩
    obtain ⟨row, hrow, hend⟩ := hv'.alive id' h
    exact halive k id' row hrow hend
  refine ⟨⟨⟨hbase.indexed, hbase.seen_le, hbase.ended, fun id' h => ?_, hbase.runs_le, fun id' h => ?_, fun id' h => ?_,
    hbase.published, hbase.nodup, hbase.answers⟩, hvalid i party g hv, fun j party' g' _ hv' => hvalid j party' g' hv'⟩,
    fun hc => ?_⟩
  · rw [owner_claim] at h
    split_ifs at h with hnew
    · rw [hnew.1]
      exact hclaimed hnew.2
    · exact hbase.owned id' h
  · rw [owner_claim] at h
    split_ifs at h
    exact hI.runs_owned id' h
  · obtain ⟨hno, hleft⟩ := hI.early id' h
    refine ⟨?_, left_of_kept hkept hleft⟩
    rw [owner_claim, if_neg]
    · exact hno
    · rintro ⟨rfl, hc⟩
      obtain ⟨row, hrow, hq⟩ := hleft
      rw [ExecutionWorld.Claimable, hrow] at hc
      exact hq (Option.some.inj hc)
  · have hv' := hvalid i party g hv
    refine ⟨hv'.alive, fun id' h => ?_, hv'.fresh, hv'.due, hv'.standing⟩
    cases h
    refine ⟨?_, hI.runs_owned id (unowned_of_claimable hI hc), hpre⟩
    rw [owner_claim, if_pos ⟨rfl, hc⟩]

/-- An UPDATE writes an end. -/
theorem keeps_finish {e : Execution} (hI : ExecutionInv w) (hv : g.Valid w i party) (ht : e.isTerminal = true) :
    ExchangeKeeps w (w.finish e) i party g := by
  have hfollows : w.rows.Follows (w.rows.update e) := follows_update ht
  have hkept : RowsKept w.rows (w.rows.update e) := hfollows.get
  have hbase := inv_of_kept hI hkept (hfollows.indexed hI.indexed)
  have hends : ∀ id, (w.finish e).ends id =
      if id = e.executionId ∧ (w.rows.get e.executionId).isSome = true then w.ends id + 1 else w.ends id := by
    intro id
    unfold ExecutionWorld.finish
    by_cases hrow : (w.rows.get e.executionId).isSome = true
    · by_cases hid : id = e.executionId
      · subst hid
        simp [hrow]
      · simp [hrow, hid]
    · simp [hrow]
  have hended : ∀ id, id = e.executionId ∧ (w.rows.get e.executionId).isSome = true →
      ∃ row, (w.rows.update e).get id = some row ∧ row.isTerminal = true := by
    rintro id ⟨rfl, hrow⟩
    obtain ⟨row, hrow⟩ := Option.isSome_iff_exists.1 hrow
    refine ⟨row.updated e, ?_, ht⟩
    rw [get_updateExecution, if_pos rfl, hrow]
    rfl
  have hvalid : ∀ k party' g', Hold.Valid g' w k party' → Hold.Valid g' (w.finish e) k party' := by
    intro k party' g' hv'
    refine ⟨fun id h => ?_, hv'.won, fun id h => ⟨(hv'.fresh id h).1, ?_⟩,
      fun id h => ⟨(hv'.due id h).1, isSome_of_kept hkept (hv'.due id h).2.1, (hv'.due id h).2.2⟩,
      standing_of_kept hkept hv'⟩
    · obtain ⟨row, hrow, hend⟩ := hv'.alive id h
      by_cases hid : id = e.executionId
      · -- one more end than the thread has seen
        subst hid
        obtain ⟨row', hrow', -⟩ := hkept _ row hrow
        refine ⟨row', hrow', fun hs => ?_⟩
        rw [hends, if_pos ⟨rfl, by rw [hrow]; rfl⟩] at hs
        have hle := hI.seen_le k e.executionId
        have hseen : (w.finish e).seen k e.executionId = w.seen k e.executionId := rfl
        omega
      · refine ⟨row, ?_, fun hs => hend ?_⟩
        · show (w.rows.update e).get id = some row
          rw [get_updateExecution, if_neg hid, hrow]
        · rw [hends, if_neg (fun h => hid h.1)] at hs
          exact hs
    · show (w.rows.update e).get id = none
      rw [get_updateExecution, (hv'.fresh id h).2]
      split_ifs <;> rfl
  refine ⟨⟨hbase.indexed, fun k id => ?_, fun id h => ?_, hbase.owned, hbase.runs_le, hbase.runs_owned, fun id h => ?_,
    hbase.published, hbase.nodup, hbase.answers⟩, hvalid i party g hv, fun j party' g' _ hv' => hvalid j party' g' hv'⟩
  · rw [hends]
    have hle : (w.finish e).seen k id ≤ w.ends id := hI.seen_le k id
    split_ifs
    · omega
    · exact hle
  · rw [hends] at h
    by_cases hid : id = e.executionId ∧ (w.rows.get e.executionId).isSome = true
    · exact hended id hid
    · rw [if_neg hid] at h
      exact hbase.ended id h
  · by_cases hold : w.early id = true
    · exact hbase.early id hold
    · unfold ExecutionWorld.finish at h
      by_cases hc : e.status = .cancelled ∧ w.owner e.executionId = none ∧ (w.rows.get e.executionId).isSome = true
      · simp only [if_pos hc] at h
        have hid : id = e.executionId := by
          by_contra hne
          rw [Function.update_of_ne hne] at h
          exact hold h
        obtain ⟨row, hrow, hend⟩ := hended id ⟨hid, hc.2.2⟩
        exact ⟨by rw [hid]; exact hc.2.1, row, hrow, ne_queued_of_terminal hend⟩
      · simp only [if_neg hc] at h
        exact absurd h hold

theorem keeps_execute (hI : ExecutionInv w) (hv : g.Valid w i party) (hwon : g.won ≠ none) :
    ExchangeKeeps w { w with runs := party.target.elim w.runs fun id => Function.update w.runs id (w.runs id + 1) } i
      party { g with won := none } := by
  obtain ⟨id, hid⟩ := Option.ne_none_iff_exists'.1 hwon
  obtain ⟨howner, hruns, htarget⟩ := hv.won id hid
  rw [htarget]
  have hrun : ∀ id', Function.update w.runs id (w.runs id + 1) id' = if id' = id then 1 else w.runs id' := by
    intro id'
    by_cases h : id' = id
    · subst h
      simp [hruns]
    · simp [h]
  refine ⟨⟨hI.indexed, hI.seen_le, hI.ended, hI.owned, fun id' => ?_, fun id' h => ?_, hI.early, hI.published, hI.nodup,
    hI.answers⟩, ⟨hv.alive, fun _ h => (by cases h), hv.fresh, hv.due, hv.standing⟩, fun j party' g' hji hv' =>
      ⟨hv'.alive, fun id' h => ⟨(hv'.won id' h).1, ?_, (hv'.won id' h).2.2⟩, hv'.fresh, hv'.due, hv'.standing⟩⟩
  · show Function.update w.runs id (w.runs id + 1) id' ≤ 1
    rw [hrun]
    split_ifs
    · exact Nat.le_refl 1
    · exact hI.runs_le id'
  · show Function.update w.runs id (w.runs id + 1) id' = 0
    rw [hrun, if_neg]
    · exact hI.runs_owned id' h
    · rintro rfl
      rw [howner] at h
      cases h
  · show Function.update w.runs id (w.runs id + 1) id' = 0
    rw [hrun, if_neg]
    · exact (hv'.won id' h).2.1
    · rintro rfl
      have hj := (hv'.won id' h).1
      rw [howner] at hj
      exact hji (Option.some.inj hj).symm

theorem keeps_publish {message : WorkspaceWorkMessage} (hI : ExecutionInv w) (hv : g.Valid w i party)
    (hpre : HoldPermitted party g (.publish message)) :
    ExchangeKeeps w { w with published := message.executionId.toList ++ w.published } i party { g with due := none } := by
  obtain ⟨hdue, hmessage⟩ := hpre
  obtain ⟨id, hid⟩ := Option.ne_none_iff_exists'.1 hdue
  obtain ⟨hissued, hrow, hnew⟩ := hv.due id hid
  rw [hmessage, hid]
  refine ⟨⟨hI.indexed, hI.seen_le, hI.ended, hI.owned, hI.runs_le, hI.runs_owned, hI.early, fun id' h => ?_,
    List.nodup_cons.2 ⟨hnew, hI.nodup⟩, hI.answers⟩,
    ⟨hv.alive, hv.won, hv.fresh, fun _ h => (by cases h), hv.standing⟩, fun j party' g' hji hv' =>
      ⟨hv'.alive, hv'.won, hv'.fresh, fun id' h => ⟨(hv'.due id' h).1, (hv'.due id' h).2.1, fun hin => ?_⟩,
        hv'.standing⟩⟩
  · rcases List.mem_cons.1 h with rfl | h
    · exact hrow
    · exact hI.published id' h
  · rcases List.mem_cons.1 hin with rfl | hin
    · have hj := (hv'.due id' h).1
      rw [hissued] at hj
      exact hji (Option.some.inj hj).symm
    · exact (hv'.due id' h).2.2 hin

theorem keeps_respond {e : Execution} (hI : ExecutionInv w) (hv : g.Valid w i party)
    (hpre : HoldPermitted party g (.respond e)) :
    ExchangeKeeps w { w with
      answers := (party.keyed.map fun key => (key.1, key.2, e.executionId)).toList ++ w.answers } i party g := by
  refine ⟨⟨hI.indexed, hI.seen_le, hI.ended, hI.owned, hI.runs_le, hI.runs_owned, hI.early, hI.published, hI.nodup,
    fun workspaceId key id h => ?_⟩, ⟨hv.alive, hv.won, hv.fresh, hv.due, hv.standing⟩,
    fun j party' g' _ hv' => ⟨hv'.alive, hv'.won, hv'.fresh, hv'.due, hv'.standing⟩⟩
  rcases List.mem_append.1 h with h | h
  · obtain ⟨pair, hpair, he⟩ := Option.map_eq_some_iff.1 (Option.mem_toList.1 h)
    obtain ⟨row, hrow, hkey⟩ := hv.standing e.executionId (hpre (by rw [hpair]; exact Option.some_ne_none pair))
    cases he
    exact ⟨row, hrow, hkey _ _ hpair⟩
  · exact hI.answers workspaceId key id h

theorem keeps_read {row : Execution} (hI : ExecutionInv w) (hv : g.Valid w i party) (hrow : w.rows.get id = some row) :
    ExchangeKeeps w (w.look i id) i party { g with alive := if row.isTerminal then none else some id } := by
  by_cases hend : row.isTerminal = true
  · rw [if_pos hend]
    exact keeps_look _ hI ⟨fun _ h => (by cases h), hv.won, hv.fresh, hv.due, hv.standing⟩ fun _ h => (by cases h)
  · rw [if_neg hend]
    have halive : row.isTerminal = false := by simpa using hend
    refine keeps_look _ hI ⟨fun id' h => ?_, hv.won, hv.fresh, hv.due, hv.standing⟩ fun _ _ _ => ⟨row, hrow, halive⟩
    cases h
    exact ⟨row, hrow, fun _ => halive⟩

/-- **What an exchange keeps**, of whatever a thread may ask. -/
theorem keeps_apply (ev : Event WorkspaceSig) (hI : ExecutionInv w) (hv : g.Valid w i party)
    (hpre : HoldPermitted party g ev.op) (hall : w.Allowed ev) :
    ExchangeKeeps w (w.apply i party ev) i party (holdStep g ev) := by
  obtain ⟨op, out, took, hk⟩ := ev
  cases op with
  | uuid4 =>
    rcases out with e | id
    · exact keeps_nothing hI hv
    · exact keeps_uuid4 hI hv hall
  | getExecution id =>
    rcases out with e | found
    · exact keeps_nothing hI hv
    · rcases found with _ | row
      · exact keeps_nothing hI hv
      · have hrow : some row = w.rows.get id := hall
        exact keeps_read hI hv hrow.symm
  | getExecutionForUser id userId =>
    rcases out with e | found
    · exact keeps_nothing hI hv
    · rcases found with _ | row
      · exact keeps_nothing hI hv
      · have hrow : some row = (w.rows.get id).filter (·.userId = userId) := hall
        exact keeps_read hI hv (Option.filter_eq_some_iff.1 hrow.symm).1
  | findExecutionByKey workspaceId key =>
    rcases out with e | found
    · exact keeps_nothing hI hv
    · rcases found with _ | row
      · exact keeps_nothing hI hv
      · have hrow : some row = w.rows.findByKey workspaceId key := hall
        obtain ⟨hmem, hw, hk'⟩ := findByKey_some hrow.symm
        refine keeps_nothing hI ⟨hv.alive, hv.won, hv.fresh, hv.due, fun id h => ?_⟩
        cases h
        refine ⟨row, hI.indexed.primary row hmem, fun workspaceId' key' hkeyed => ?_⟩
        have hpre' : party.keyed = some (workspaceId, key) := hpre
        rw [hpre'] at hkeyed
        cases hkeyed
        exact ⟨hw, hk'⟩
  | insertExecution row =>
    rcases took with _ | _
    · rcases out with e | u
      · exact keeps_nothing hI hv
      · exact absurd (hk u rfl) (by decide)
    · exact keeps_insert hI hv hpre (hall.1 rfl).1 (hall.1 rfl).2
  | claimExecution id runtimeId startedAt =>
    rcases took with _ | _
    · rcases out with e | claimed
      · exact keeps_nothing hI hv
      · exact absurd (hk claimed rfl) (by decide)
    · obtain ⟨hkeeps, hwon⟩ := keeps_claim runtimeId startedAt hI hv hpre
      rcases out with e | claimed
      · exact hkeeps
      · cases claimed with
        | false => exact hkeeps
        | true =>
          have hc : w.Claimable id := by
            have hdec : true = decide (w.Claimable id) := hall
            exact of_decide_eq_true hdec.symm
          exact ⟨hkeeps.inv, hwon hc, hkeeps.other⟩
  | updateExecution e =>
    rcases took with _ | _
    · exact keeps_nothing hI hv
    · exact keeps_finish hI hv hpre.2
  | provider op =>
    cases op with
    | execute providerRef request => exact keeps_execute hI hv hpre
    | _ => exact keeps_nothing hI hv
  | publish message =>
    rcases took with _ | _
    · refine keeps_nothing hI ⟨hv.alive, hv.won, hv.fresh, fun _ h => (by cases h), hv.standing⟩
    · exact keeps_publish hI hv hpre
  | respond e => exact keeps_respond hI hv hpre
  | _ => exact keeps_nothing hI hv

theorem relied_of_allowed {ev : Event WorkspaceSig} (hI : ExecutionInv w) (hv : g.Valid w i party) (hall : w.Allowed ev) :
    (executionMonitor party).rely g ev := by
  obtain ⟨op, out, took, hk⟩ := ev
  cases op with
  | getExecution id =>
    rcases out with e | found
    · trivial
    · rcases found with _ | row
      · intro halive
        obtain ⟨row, hrow, -⟩ := hv.alive id halive
        have hnone : none = w.rows.get id := hall
        rw [hrow] at hnone
        cases hnone
      · have hrow : some row = w.rows.get id := hall
        exact get_executionId hrow.symm
  | getExecutionForUser id userId =>
    rcases out with e | found
    · trivial
    · rcases found with _ | row
      · trivial
      · have hrow : some row = (w.rows.get id).filter (·.userId = userId) := hall
        exact get_executionId (Option.filter_eq_some_iff.1 hrow.symm).1
  | findExecutionByKey workspaceId key =>
    rcases out with e | found
    · trivial
    · rcases found with _ | row
      · trivial
      · have hrow : some row = w.rows.findByKey workspaceId key := hall
        intro hfresh
        have hnone := (hv.fresh _ hfresh).2
        rw [hI.indexed.primary row (findByKey_some hrow.symm).1] at hnone
        cases hnone
  | insertExecution row => exact hall.2
  | _ => trivial

/-- A running thread asks what it may, of what it knows. -/
def HoldThread (w : ExecutionWorld) (i : ℕ) (party : ExecutionParty) (p : Proc WorkspaceSig Unit) : Prop :=
  ∃ g : Hold, g.Valid w i party ∧ wp (executionMonitor party) p (fun _ _ => True) g

variable {ctx : WorkspaceContext}

theorem execution_preserved :
    (executionSystem ctx).Preserved ExecutionInv HoldThread fun _ _ _ _ => True where
  start_world := by
    rintro w w' i party p hI ⟨rfl, -⟩
    exact hI
  start_thread := by
    rintro w w' i party p - ⟨rfl, rfl⟩
    exact ⟨{}, valid_nothing, program_spec party⟩
  start_other := by
    rintro w w' i party p - ⟨rfl, -⟩ j party' q - hT
    exact hT
  act_world := by
    rintro c i party op k out took h hI ⟨g, hv, hwp⟩ hall -
    have hpre : HoldPermitted party g op := hwp.1
    exact (keeps_apply ⟨op, out, took, h⟩ hI hv hpre hall).inv
  act_thread := by
    rintro c i party op k out took h hI ⟨g, hv, hwp⟩ hall -
    have hpre : HoldPermitted party g op := hwp.1
    exact ⟨_, (keeps_apply ⟨op, out, took, h⟩ hI hv hpre hall).self, hwp.2 out took h (relied_of_allowed hI hv hall)⟩
  act_other := by
    rintro c i party op k out took h hI ⟨g, hv, hwp⟩ hall - j party' q hji - ⟨g', hv', hwp'⟩
    have hpre : HoldPermitted party g op := hwp.1
    exact ⟨g', (keeps_apply ⟨op, out, took, h⟩ hI hv hpre hall).other j party' g' hji hv', hwp'⟩

/-- The invariant of every run. -/
abbrev ExecutionsInv (c : (executionSystem ctx).Config) : Prop := (executionSystem ctx).Inv ExecutionInv HoldThread c

theorem executionsInv_step {c c' : (executionSystem ctx).Config} {l : (executionSystem ctx).Label}
    (hI : ExecutionsInv c) (hs : (executionSystem ctx).Step c l c') : ExecutionsInv c' := by
  refine inv_step execution_preserved hI hs ?_
  cases l <;> trivial

theorem executionsInv_start {c : (executionSystem ctx).Config} (hc : ExecutionStart c) : ExecutionsInv c := by
  obtain ⟨hfree, rows, hindexed, hw⟩ := hc
  refine ⟨?_, fun i party p h => ?_⟩
  · rw [hw]
    exact ⟨hindexed, fun _ _ => Nat.le_refl _, fun _ h => (by cases h), fun _ h => absurd rfl h, fun _ => Nat.zero_le _,
      fun _ _ => rfl, fun _ h => (by cases h), fun _ h => (by cases h), List.nodup_nil, fun _ _ _ h => (by cases h)⟩
  · rw [hfree i] at h
    cases h

end Invariant

end Transform.Workspaces
