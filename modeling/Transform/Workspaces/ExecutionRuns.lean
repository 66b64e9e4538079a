import Transform.Workspaces.ExecutionSystem

/-!
# Workspaces.ExecutionRuns — what holds of executions in every run

Over the runs of `executionSystem`:

* `keeps_results_iff`: a row that has ended keeps its result exactly if no UPDATE comes after an end that its thread has
  not seen, unless it writes what the row says already.
* `at_most_one_run`: the provider is asked at most once to run an execution, and never one that was CANCELLED before it
  was claimed.
* `submits_safe_iff`: submits with one key agree on the execution, which is published at most once, and no workspace has
  more active executions than it may, exactly if no INSERT is made where the limit has been reached.
-/

namespace Transform.Workspaces

open Lib Conversions Queues

variable {ctx : WorkspaceContext} {c c' : (executionSystem ctx).Config} {l : (executionSystem ctx).Label}

/-! ## An end is never overwritten -/

section Results

/-- What the end of an execution records. -/
structure ExecutionResult where
  status : ExecutionStatus
  exitCode : Option ℤ
  error : Option String
  stdoutExcerpt : String
  stderrExcerpt : String
  stdoutRef : Option String
  stderrRef : Option String
  stdoutTruncated : Bool
  stderrTruncated : Bool
  artifacts : List ExecutionArtifact
  deriving DecidableEq

def Execution.result (execution : Execution) : ExecutionResult where
  status := execution.status
  exitCode := execution.exitCode
  error := execution.error
  stdoutExcerpt := execution.stdoutExcerpt
  stderrExcerpt := execution.stderrExcerpt
  stdoutRef := execution.stdoutRef
  stderrRef := execution.stderrRef
  stdoutTruncated := execution.stdoutTruncated
  stderrTruncated := execution.stderrTruncated
  artifacts := execution.artifacts

def KeepsResults (c : (executionSystem ctx).Config) (_ : (executionSystem ctx).Label)
    (c' : (executionSystem ctx).Config) : Prop :=
  ∀ id row, (ExecutionWorld.rows c.world).get id = some row → row.isTerminal = true →
    ∃ row', (ExecutionWorld.rows c'.world).get id = some row' ∧ row'.result = row.result

/-- An UPDATE is of an execution that no commit has ended since its thread last read it, or it writes the result that the
row has already. -/
def WritesUnended (c : (executionSystem ctx).Config) :
    (executionSystem ctx).Label → (executionSystem ctx).Config → Prop
  | .act i _ ⟨.updateExecution e, _, true, _⟩, _ =>
    ExecutionWorld.ends c.world e.executionId = ExecutionWorld.seen c.world i e.executionId ∨
      ∀ row ∈ (ExecutionWorld.rows c.world).get e.executionId, row.result = e.result
  | _, _ => True

theorem get_apply_ended {w : ExecutionWorld} {i : ℕ} {party : ExecutionParty} {ev : Event WorkspaceSig} {id : String}
    {row : Execution} (hrow : w.rows.get id = some row) (hend : row.isTerminal = true)
    (hop : ∀ e, ev.op ≠ .updateExecution e) : (w.apply i party ev).rows.get id = some row := by
  unfold ExecutionWorld.apply
  split
  · exact hrow
  · exact hrow
  · exact hrow
  · exact get_insert_old hrow
  · rename_i executionId runtimeId startedAt out h
    show (w.rows.claim executionId runtimeId startedAt).get id = some row
    rw [get_claim, hrow]
    split_ifs
    · rw [Option.map_some, if_neg (ne_queued_of_terminal hend)]
    · rfl
  · exact absurd rfl (hop _)
  · exact hrow
  · exact hrow
  · exact hrow
  · exact hrow

theorem keeps_results_step (hI : ExecutionsInv c) (hst : (executionSystem ctx).Step c l c') :
    KeepsResults c l c' ↔ WritesUnended c l c' := by
  cases hst with
  | @start i party p w hfree hspawn =>
    obtain rfl : w = c.world := hspawn.1
    exact ⟨fun _ => trivial, fun _ id row hrow _ => ⟨row, hrow, rfl⟩⟩
  | @exit i => exact ⟨fun _ => trivial, fun _ id row hrow _ => ⟨row, hrow, rfl⟩⟩
  | @act i party op k hrun out took h hall =>
    obtain ⟨g, hv, hwp⟩ := hI.2 i party _ hrun
    by_cases hop : ∃ e, op = .updateExecution e ∧ took = true
    · obtain ⟨e, rfl, rfl⟩ := hop
      obtain ⟨halive, ht⟩ : HoldPermitted party g (.updateExecution e) := hwp.1
      obtain ⟨row, hrow, hopen⟩ := hv.alive _ halive
      have hafter : ∀ id, (ExecutionWorld.rows (ExecutionWorld.finish c.world e)).get id =
          if id = e.executionId then ((ExecutionWorld.rows c.world).get id).map (·.updated e)
          else (ExecutionWorld.rows c.world).get id := fun id => get_updateExecution
      constructor
      · intro hkeeps
        by_cases hseen : ExecutionWorld.ends c.world e.executionId = ExecutionWorld.seen c.world i e.executionId
        · exact .inl hseen
        · refine .inr fun row' hrow' => ?_
          have hle := hI.1.seen_le i e.executionId
          obtain ⟨ended, hended, hend⟩ := hI.1.ended e.executionId (by omega)
          obtain rfl : ended = row' := Option.some.inj (hended.symm.trans hrow')
          obtain ⟨after, hget, hresult⟩ := hkeeps e.executionId ended hended hend
          have hupdated : (ExecutionWorld.rows (ExecutionWorld.finish c.world e)).get e.executionId =
              some (ended.updated e) := by
            rw [hafter, if_pos rfl, hended]
            rfl
          obtain rfl : after = ended.updated e := Option.some.inj (hget.symm.trans hupdated)
          exact hresult.symm
      · intro hwrites id row' hrow' hend
        by_cases hid : id = e.executionId
        · subst hid
          refine ⟨row'.updated e, ?_, ?_⟩
          · show (ExecutionWorld.rows (ExecutionWorld.finish c.world e)).get _ = _
            rw [hafter, if_pos rfl, hrow']
            rfl
          · rcases hwrites with hseen | hsame
            · obtain rfl : row = row' := Option.some.inj (hrow.symm.trans hrow')
              rw [hopen hseen] at hend
              cases hend
            · exact (hsame row' hrow').symm
        · refine ⟨row', ?_, rfl⟩
          show (ExecutionWorld.rows (ExecutionWorld.finish c.world e)).get _ = _
          rw [hafter, if_neg hid, hrow']
    · have hfree : WritesUnended c (.act i party ⟨op, out, took, h⟩)
          ⟨ExecutionWorld.apply c.world i party ⟨op, out, took, h⟩, Function.update c.threads i (some (party, k out))⟩ := by
        unfold WritesUnended
        split
        · rename_i heq
          cases heq
          exact absurd ⟨_, rfl, rfl⟩ hop
        · trivial
      refine ⟨fun _ => hfree, fun _ id row hrow hend => ?_⟩
      by_cases hup : ∃ e, op = .updateExecution e
      · obtain ⟨e, rfl⟩ := hup
        rcases took with _ | _
        · exact ⟨row, hrow, rfl⟩
        · exact absurd ⟨e, rfl, rfl⟩ hop
      · exact ⟨row, get_apply_ended hrow hend fun e he => hup ⟨e, he⟩, rfl⟩

/-- **An end is kept**: along every run, every row that has ended keeps its result, exactly if no UPDATE follows an end
that its thread has not seen, or what it writes is what the row says. -/
theorem keeps_results_iff {tr : List ((executionSystem ctx).Label × (executionSystem ctx).Config)}
    (hc : ExecutionStart c) (hs : (executionSystem ctx).Steps c tr) :
    Along KeepsResults c tr ↔ Along WritesUnended c tr :=
  along_congr (I := ExecutionsInv) (fun _ _ _ hI hst => executionsInv_step hI hst)
    (fun _ _ _ hI hst => keeps_results_step hI hst) (executionsInv_start hc) hs

end Results

/-! ## At most one run -/

section Runs

/-- The provider was asked at most once to run an execution, and not at all if it was CANCELLED before any claim. -/
def AtMostOneRun (c : (executionSystem ctx).Config) : Prop :=
  ∀ id, ExecutionWorld.runs c.world id ≤ 1 ∧
    (ExecutionWorld.early c.world id = true → ExecutionWorld.runs c.world id = 0)

theorem atMostOneRun_of_inv (hI : ExecutionsInv c) : AtMostOneRun c :=
  fun id => ⟨hI.1.runs_le id, fun h => hI.1.runs_owned id (hI.1.early id h).1⟩

/-- **At most one run** of an execution, whatever is delivered, how often, and however deliveries, submits and cancels
interleave. -/
theorem at_most_one_run {tr : List ((executionSystem ctx).Label × (executionSystem ctx).Config)} (hc : ExecutionStart c)
    (hs : (executionSystem ctx).Steps c tr) : Along (fun _ _ c' => AtMostOneRun c') c tr := by
  refine along_of_step (I := ExecutionsInv) (φ := fun _ _ _ => True) (fun _ _ c' hI hst _ => ?_)
    (executionsInv_start hc) hs ?_
  · have hI' := executionsInv_step hI hst
    exact ⟨hI', atMostOneRun_of_inv hI'⟩
  · exact along_mono (fun _ _ _ _ => trivial) hs

end Runs

/-! ## Submits -/

section Submits

/-- Submits with one key were answered with one execution, every message was published once, and no workspace has more
active executions than it may. -/
def SubmitsSafe (c : (executionSystem ctx).Config) : Prop :=
  (∀ workspaceId key id id', (workspaceId, key, id) ∈ ExecutionWorld.answers c.world →
    (workspaceId, key, id') ∈ ExecutionWorld.answers c.world → id = id') ∧
  (ExecutionWorld.published c.world).Nodup ∧
  ∀ workspaceId, ((ExecutionWorld.rows c.world).listActive workspaceId).length ≤ ctx.maxActiveExecutions

/-- An INSERT is made where the workspace still has fewer active executions than it may. -/
def InsertsBelowLimit (c : (executionSystem ctx).Config) :
    (executionSystem ctx).Label → (executionSystem ctx).Config → Prop
  | .act _ _ ⟨.insertExecution row, _, true, _⟩, _ =>
    ((ExecutionWorld.rows c.world).listActive row.workspaceId).length < ctx.maxActiveExecutions
  | _, _ => True

theorem answers_agree {w : ExecutionWorld} (hI : ExecutionInv w) {workspaceId key id id' : String}
    (h : (workspaceId, key, id) ∈ w.answers) (h' : (workspaceId, key, id') ∈ w.answers) : id = id' := by
  obtain ⟨row, hrow, hw, hk⟩ := hI.answers workspaceId key id h
  obtain ⟨row', hrow', hw', hk'⟩ := hI.answers workspaceId key id' h'
  have hids := hI.indexed.keys row (get_mem hrow) row' (get_mem hrow') key hk hk' (hw.trans hw'.symm)
  rw [get_executionId hrow, get_executionId hrow'] at hids
  exact hids

theorem listActive_apply {w : ExecutionWorld} {i : ℕ} {party : ExecutionParty} {g : Hold} (ev : Event WorkspaceSig)
    {workspaceId : String} (hpre : HoldPermitted party g ev.op) (hop : ∀ row, ev.op = .insertExecution row → ev.took = false) :
    ((w.apply i party ev).rows.listActive workspaceId).length ≤ (w.rows.listActive workspaceId).length := by
  unfold ExecutionWorld.apply
  split
  · exact Nat.le_refl _
  · exact Nat.le_refl _
  · exact Nat.le_refl _
  · rename_i row out h
    have hno : true = false := hop row rfl
    cases hno
  · exact listActive_modify fun _ => follows_claim
  · exact listActive_modify fun _ => follows_updated hpre.2
  · exact Nat.le_refl _
  · exact Nat.le_refl _
  · exact Nat.le_refl _
  · exact Nat.le_refl _

theorem submits_safe_step (hI : ExecutionsInv c) (hk : SubmitsSafe c) (hst : (executionSystem ctx).Step c l c') :
    SubmitsSafe c' ↔ InsertsBelowLimit c l c' := by
  have hI' := executionsInv_step hI hst
  have hsafe : SubmitsSafe c' ↔
      ∀ workspaceId, ((ExecutionWorld.rows c'.world).listActive workspaceId).length ≤ ctx.maxActiveExecutions :=
    ⟨fun h => h.2.2, fun h => ⟨fun _ _ _ _ h₁ h₂ => answers_agree hI'.1 h₁ h₂, hI'.1.nodup, h⟩⟩
  rw [hsafe]
  cases hst with
  | @start i party p w hfree hspawn =>
    obtain rfl : w = c.world := hspawn.1
    exact ⟨fun _ => trivial, fun _ => hk.2.2⟩
  | @exit i => exact ⟨fun _ => trivial, fun _ => hk.2.2⟩
  | @act i party op k hrun out took h hall =>
    obtain ⟨g, hv, hwp⟩ := hI.2 i party _ hrun
    have hpre : HoldPermitted party g op := hwp.1
    by_cases hop : ∃ row, op = .insertExecution row ∧ took = true
    · obtain ⟨row, rfl, rfl⟩ := hop
      have hopen : row.isTerminal = false := by
        rw [Execution.isTerminal, hpre.1]
        rfl
      have hcount : ∀ workspaceId, ((ExecutionWorld.rows c.world).insert row |>.listActive workspaceId).length =
          ((ExecutionWorld.rows c.world).listActive workspaceId).length +
            if row.workspaceId = workspaceId ∧ row.isTerminal = false then 1 else 0 := fun _ => listActive_insert
      constructor
      · intro hmax
        have hlim : ((ExecutionWorld.rows c.world).insert row |>.listActive row.workspaceId).length ≤
            ctx.maxActiveExecutions := hmax row.workspaceId
        rw [hcount, if_pos ⟨rfl, hopen⟩] at hlim
        exact hlim
      · intro hbelow workspaceId
        have hlim : ((ExecutionWorld.rows c.world).listActive row.workspaceId).length < ctx.maxActiveExecutions := hbelow
        show ((ExecutionWorld.rows c.world).insert row |>.listActive workspaceId).length ≤ ctx.maxActiveExecutions
        rw [hcount]
        have hmax := hk.2.2 workspaceId
        split_ifs with hw
        · rw [← hw.1]
          omega
        · omega
    · have hfree : InsertsBelowLimit c (.act i party ⟨op, out, took, h⟩)
          ⟨ExecutionWorld.apply c.world i party ⟨op, out, took, h⟩, Function.update c.threads i (some (party, k out))⟩ := by
        unfold InsertsBelowLimit
        split
        · rename_i heq
          cases heq
          exact absurd ⟨_, rfl, rfl⟩ hop
        · trivial
      refine ⟨fun _ => hfree, fun _ workspaceId => ?_⟩
      refine Nat.le_trans (listActive_apply ⟨op, out, took, h⟩ hpre fun row he => ?_) (hk.2.2 workspaceId)
      by_contra htook
      exact hop ⟨row, he, by simpa using htook⟩

/-- **Submits are safe**: along every run, submits with one key are answered with one execution, which is published at
most once, and no workspace exceeds its limit, exactly if every INSERT is made below the limit. -/
theorem submits_safe_iff {tr : List ((executionSystem ctx).Label × (executionSystem ctx).Config)}
    (hc : ExecutionStart c) (hk : SubmitsSafe c) (hs : (executionSystem ctx).Steps c tr) :
    Along (fun _ _ c' => SubmitsSafe c') c tr ↔ Along InsertsBelowLimit c tr :=
  along_iff (fun _ _ _ hI hst => executionsInv_step hI hst) (fun _ _ _ hI hk hst => submits_safe_step hI hk hst)
    (executionsInv_start hc) hk hs

end Submits

/-! ## Concrete runs -/

section Concrete

def queuedExecution : Execution where
  executionId := "e-1"
  workspaceId := "w-1"
  userId := 7
  mode := .script
  source := "print(1)"

abbrev smallSystem : Sys WorkspaceSig := executionSystem smallContext

/-- Every call answers; the workspace is there and its runtime serves. -/
def executionReply (w : ExecutionWorld) : (op : WorkspaceOp) → Except WorkError op.Ans
  | .uuid4 => .ok (if w.issued "e-2" = none then "e-2" else "e-3")
  | .now => .ok (0 : ℤ)
  | .getWorkspace _ _ => .ok (some someWorkspace)
  | .getRuntime _ => .ok (some servingRuntime)
  | .getExecution id => .ok (w.rows.get id)
  | .getExecutionForUser id userId => .ok ((w.rows.get id).filter (·.userId = userId))
  | .findExecutionByKey workspaceId key => .ok (w.rows.findByKey workspaceId key)
  | .listActiveExecutions workspaceId => .ok (w.rows.listActive workspaceId)
  | .claimExecution id _ _ => .ok (decide (w.Claimable id))
  | .updateWorkspace _ => .ok true
  | .updateExecution _ => .ok true
  | .insertExecution _ => .ok ()
  | .publish _ => .ok ()
  | .respond _ => .ok ()
  | .provider (.execute _ _) => .ok { exitCode := some 0 }
  | .provider (.listFiles _ _) => .ok []
  | _ => .error { name := "TimeoutError", message := "" }

def executionDriver : smallSystem.Driver where
  reply := executionReply
  check w _ _ ev := @decide _ (ExecutionWorld.decidableAllowed w ev)
  sound h := @of_decide_eq_true _ (ExecutionWorld.decidableAllowed _ _) h

def startParty (party : ExecutionParty) (i : ℕ) : smallSystem.Starter i where
  start w := some (party, party.program smallContext, w)
  sound h := by
    cases h
    exact ⟨rfl, rfl⟩

def oneQueued : smallSystem.Config := ⟨({ rows := [queuedExecution] } : ExecutionWorld), fun _ => none⟩

def noExecutions : smallSystem.Config := ⟨({ rows := [] } : ExecutionWorld), fun _ => none⟩

theorem start_oneQueued : ExecutionStart oneQueued := by
  refine ⟨fun _ => rfl, _, ⟨fun row hrow => ?_, fun row hrow row' hrow' _ _ _ _ => ?_⟩, rfl⟩
  · rw [List.mem_singleton.1 hrow]
    rfl
  · rw [List.mem_singleton.1 hrow, List.mem_singleton.1 hrow']

theorem start_noExecutions : ExecutionStart noExecutions :=
  ⟨fun _ => rfl, _, ⟨fun _ h => (by cases h), fun _ h => (by cases h)⟩, rfl⟩

abbrev SmallMoves : Type := List smallSystem.Move

def goTimes (i : ℕ) : ℕ → SmallMoves
  | 0 => []
  | n + 1 => .go i :: goTimes i n

def runOfExecutions (c : smallSystem.Config) (moves : SmallMoves) : List (smallSystem.Label × smallSystem.Config) :=
  Sys.drive executionDriver c moves

/-- A delivery of the execution runs it while its owner cancels it; then the provider fails. -/
def cancelUnderFailure : List (smallSystem.Label × smallSystem.Config) :=
  runOfExecutions oneQueued
    (([.start 0 (startParty (.handler (executionMessage queuedExecution)) 0)] : SmallMoves) ++ goTimes 0 7 ++
      ([.fail 0 { name := "ProviderExecutionError", isProvider := true, message := "reset" } true,
        .start 1 (startParty (.canceller "e-1" 7) 1)] : SmallMoves) ++ goTimes 1 3 ++ goTimes 0 2)

def deliveredTwice : List (smallSystem.Label × smallSystem.Config) :=
  runOfExecutions oneQueued
    (([.start 0 (startParty (.handler (executionMessage queuedExecution)) 0),
      .start 1 (startParty (.handler (executionMessage queuedExecution)) 1)] : SmallMoves) ++ goTimes 0 6 ++
      goTimes 1 6 ++ goTimes 0 7)

/-- Two submits count, and then insert. -/
def twoSubmits : List (smallSystem.Label × smallSystem.Config) :=
  let req : SubmitRequest := { workspaceId := "w-1", userId := 7, mode := .script, source := "print(1)" }
  runOfExecutions noExecutions
    (([.start 0 (startParty (.submitter req) 0), .start 1 (startParty (.submitter req) 1)] : SmallMoves) ++ goTimes 0 3 ++
      goTimes 1 3 ++ ([.go 0, .go 1] : SmallMoves))

theorem keeps_results_iff_cancelUnderFailure :
    Along KeepsResults oneQueued cancelUnderFailure ↔ Along WritesUnended oneQueued cancelUnderFailure :=
  keeps_results_iff start_oneQueued (steps_drive executionDriver _ _)

/-- The execution keeps its result once it has ended. -/
def FirstKept (c : smallSystem.Config) (_ : smallSystem.Label) (c' : smallSystem.Config) : Prop :=
  ∀ row ∈ (ExecutionWorld.rows c.world).get "e-1", row.isTerminal = true →
    ∀ row' ∈ (ExecutionWorld.rows c'.world).get "e-1", row'.result = row.result

instance decidableFirstKept (c : smallSystem.Config) (l : smallSystem.Label) (c' : smallSystem.Config) :
    Decidable (FirstKept c l c') := by
  unfold FirstKept
  infer_instance

/-- A failure of the provider overwrites a cancellation: the row is not read again before it is written. -/
theorem cancelled_becomes_failed : ¬ ∀ (ctx : WorkspaceContext) (c : (executionSystem ctx).Config)
    (tr : List ((executionSystem ctx).Label × (executionSystem ctx).Config)), ExecutionStart c →
      (executionSystem ctx).Steps c tr → Along KeepsResults c tr := by
  intro h
  have hkept : Along FirstKept oneQueued cancelUnderFailure := by
    refine along_mono (fun c _ c' hk row hrow hend row' hrow' => ?_)
      (h smallContext oneQueued cancelUnderFailure start_oneQueued (steps_drive executionDriver _ _))
    obtain ⟨after, hafter, hresult⟩ := hk "e-1" row hrow hend
    obtain rfl : after = row' := Option.some.inj (hafter.symm.trans hrow')
    exact hresult
  have hlost : ¬ Along FirstKept oneQueued cancelUnderFailure :=
    @of_decide_eq_true _ (@instDecidableNot _ (@decidableAlong _ _ _ decidableFirstKept _ _)) (by decide +kernel)
  exact hlost hkept

theorem at_most_one_run_deliveredTwice :
    Along (fun _ _ c' => AtMostOneRun c') oneQueued deliveredTwice :=
  at_most_one_run start_oneQueued (steps_drive executionDriver _ _)

theorem submitsSafe_noExecutions : SubmitsSafe noExecutions :=
  ⟨fun _ _ _ _ h => (by cases h), List.nodup_nil, fun _ => Nat.zero_le _⟩

theorem submits_safe_iff_twoSubmits :
    Along (fun _ _ c' => SubmitsSafe c') noExecutions twoSubmits ↔ Along InsertsBelowLimit noExecutions twoSubmits :=
  submits_safe_iff start_noExecutions submitsSafe_noExecutions (steps_drive executionDriver _ _)

/-- The workspace has one active execution at most. -/
def OneActive (_ : smallSystem.Config) (_ : smallSystem.Label) (c' : smallSystem.Config) : Prop :=
  ((ExecutionWorld.rows c'.world).listActive "w-1").length ≤ 1

instance decidableOneActive (c : smallSystem.Config) (l : smallSystem.Label) (c' : smallSystem.Config) :
    Decidable (OneActive c l c') := by
  unfold OneActive
  infer_instance

/-- Two submits that count before either inserts exceed a limit of one. -/
theorem submits_exceed_limit : ¬ ∀ (ctx : WorkspaceContext) (c : (executionSystem ctx).Config)
    (tr : List ((executionSystem ctx).Label × (executionSystem ctx).Config)), ExecutionStart c → SubmitsSafe c →
      (executionSystem ctx).Steps c tr → Along (fun _ _ c' => SubmitsSafe c') c tr := by
  intro h
  have hone : Along OneActive noExecutions twoSubmits :=
    along_mono (fun _ _ _ hk => hk.2.2 "w-1")
      (h smallContext noExecutions twoSubmits start_noExecutions submitsSafe_noExecutions
        (steps_drive executionDriver _ _))
  have htwo : ¬ Along OneActive noExecutions twoSubmits :=
    @of_decide_eq_true _ (@instDecidableNot _ (@decidableAlong _ _ _ decidableOneActive _ _)) (by decide +kernel)
  exact htwo hone

end Concrete

end Transform.Workspaces
