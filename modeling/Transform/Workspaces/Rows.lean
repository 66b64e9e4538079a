import Transform.Workspaces.Revision

/-!
# Workspaces.Rows — the tables of executions and of environment snapshots

`update_execution` writes every column of an outcome, whatever the row says; `claim_execution` moves a row that is
QUEUED.  Under a claim, and under an UPDATE that writes an end, a row that has left the queue never returns to it, and
one that has ended stays ended (`Execution.Follows`).
-/

namespace Transform.Workspaces

/-! ## Executions -/

section Executions

/-- The rows of `executions`. -/
abbrev ExecutionRows := List Execution

/-- A row after `update_execution` with `execution`. -/
def Execution.updated (row execution : Execution) : Execution :=
  { row with
    status := execution.status
    runtimeId := execution.runtimeId
    exitCode := execution.exitCode
    stdoutExcerpt := execution.stdoutExcerpt
    stderrExcerpt := execution.stderrExcerpt
    stdoutRef := execution.stdoutRef
    stderrRef := execution.stderrRef
    stdoutTruncated := execution.stdoutTruncated
    stderrTruncated := execution.stderrTruncated
    error := execution.error
    artifacts := execution.artifacts
    durationMs := execution.durationMs
    memoryPeakBytes := execution.memoryPeakBytes
    startedAt := execution.startedAt
    completedAt := execution.completedAt }

/-- A row after `claim_execution`. -/
def Execution.claimed (row : Execution) (runtimeId : String) (startedAt : ℤ) : Execution :=
  { row with
    status := .running
    runtimeId := some runtimeId
    startedAt := some startedAt }

namespace ExecutionRows

def insert (rows : ExecutionRows) (row : Execution) : ExecutionRows := rows ++ [row]

def get (rows : ExecutionRows) (executionId : String) : Option Execution := rows.find? (·.executionId = executionId)

def findByKey (rows : ExecutionRows) (workspaceId key : String) : Option Execution :=
  rows.find? fun row => row.workspaceId = workspaceId ∧ row.idempotencyKey = some key

/-- The executions of a workspace that are QUEUED or RUNNING. -/
def listActive (rows : ExecutionRows) (workspaceId : String) : List Execution :=
  rows.filter fun row => row.workspaceId = workspaceId ∧ row.isTerminal = false

def modify (rows : ExecutionRows) (executionId : String) (f : Execution → Execution) : ExecutionRows :=
  rows.map fun row => if row.executionId = executionId then f row else row

def update (rows : ExecutionRows) (execution : Execution) : ExecutionRows :=
  rows.modify execution.executionId (·.updated execution)

/-- `WHERE status = 'QUEUED'`. -/
def claim (rows : ExecutionRows) (executionId runtimeId : String) (startedAt : ℤ) : ExecutionRows :=
  rows.modify executionId fun row => if row.status = .queued then row.claimed runtimeId startedAt else row

/-- The primary key, and the unique index on the workspace and the idempotency key. -/
structure Indexed (rows : ExecutionRows) : Prop where
  primary : ∀ row ∈ rows, rows.get row.executionId = some row
  keys : ∀ row ∈ rows, ∀ row' ∈ rows, ∀ key, row.idempotencyKey = some key → row'.idempotencyKey = some key →
    row.workspaceId = row'.workspaceId → row.executionId = row'.executionId

def KeyFree (rows : ExecutionRows) (row : Execution) : Prop :=
  ∀ key ∈ row.idempotencyKey, rows.findByKey row.workspaceId key = none

instance (rows : ExecutionRows) (row : Execution) : Decidable (rows.KeyFree row) := by
  unfold KeyFree
  infer_instance

end ExecutionRows

variable {rows : ExecutionRows} {row execution : Execution} {executionId other runtimeId : String} {startedAt : ℤ}
  {f : Execution → Execution}

theorem get_executionId (h : rows.get executionId = some row) : row.executionId = executionId := by
  have hid := List.find?_some h
  simpa using hid

theorem get_modify (hf : ∀ row, (f row).executionId = row.executionId) :
    (rows.modify other f).get executionId =
      if executionId = other then (rows.get executionId).map f else rows.get executionId := by
  unfold ExecutionRows.modify ExecutionRows.get
  rw [List.find?_map]
  have hp : ((fun row : Execution => decide (row.executionId = executionId)) ∘ fun row =>
      if row.executionId = other then f row else row) = fun row => decide (row.executionId = executionId) := by
    funext row
    simp only [Function.comp]
    split_ifs
    · rw [hf]
    · rfl
  rw [hp]
  rcases hrow : rows.find? fun row => decide (row.executionId = executionId) with _ | row
  · rw [hrow]
    simp
  · have hid : row.executionId = executionId := by simpa using List.find?_some hrow
    rw [hrow]
    by_cases h : executionId = other <;> simp [hid, h]

theorem get_updateExecution : (rows.update execution).get executionId =
    if executionId = execution.executionId then (rows.get executionId).map (·.updated execution)
    else rows.get executionId := by
  have hf : ∀ row : Execution, (row.updated execution).executionId = row.executionId := fun _ => rfl
  exact get_modify hf

theorem get_claim : (rows.claim other runtimeId startedAt).get executionId =
    if executionId = other then
      (rows.get executionId).map fun row => if row.status = .queued then row.claimed runtimeId startedAt else row
    else rows.get executionId := by
  refine get_modify fun row => ?_
  split_ifs
  · rfl
  · rfl

theorem get_insertExecution : (rows.insert row).get executionId =
    (rows.get executionId).or (if row.executionId = executionId then some row else none) := by
  unfold ExecutionRows.insert ExecutionRows.get
  rw [List.find?_append]
  by_cases h : row.executionId = executionId <;> simp [h]

theorem get_mem (h : rows.get executionId = some row) : row ∈ rows := List.mem_of_find?_eq_some h

theorem findByKey_some {workspaceId key : String} (h : rows.findByKey workspaceId key = some row) :
    row ∈ rows ∧ row.workspaceId = workspaceId ∧ row.idempotencyKey = some key := by
  refine ⟨List.mem_of_find?_eq_some h, ?_⟩
  have hrow := List.find?_some h
  simpa using hrow

/-! ### What the statements keep -/

/-- What of a row no statement undoes: whose it is, that it is no longer QUEUED, and that it has ended. -/
structure Execution.Follows (row row' : Execution) : Prop where
  executionId : row'.executionId = row.executionId
  workspaceId : row'.workspaceId = row.workspaceId
  idempotencyKey : row'.idempotencyKey = row.idempotencyKey
  left_queue : row.status ≠ .queued → row'.status ≠ .queued
  ended : row.isTerminal = true → row'.isTerminal = true

theorem follows_refl : row.Follows row := ⟨rfl, rfl, rfl, fun h => h, fun h => h⟩

theorem ne_queued_of_terminal (h : row.isTerminal = true) : row.status ≠ .queued := by
  intro hq
  rw [Execution.isTerminal, hq] at h
  cases h

/-- An UPDATE that writes an end. -/
theorem follows_updated (ht : execution.isTerminal = true) : row.Follows (row.updated execution) := by
  refine ⟨rfl, rfl, rfl, fun _ => ?_, fun _ => ht⟩
  have hended : (row.updated execution).isTerminal = true := ht
  exact ne_queued_of_terminal hended

theorem follows_claim : row.Follows (if row.status = .queued then row.claimed runtimeId startedAt else row) := by
  by_cases hq : row.status = .queued
  · rw [if_pos hq]
    refine ⟨rfl, rfl, rfl, fun h => absurd hq h, fun h => ?_⟩
    exact absurd hq (ne_queued_of_terminal h)
  · rw [if_neg hq]
    exact follows_refl

/-- Every row is followed by one of the same execution, and the rows are still indexed. -/
structure ExecutionRows.Follows (rows rows' : ExecutionRows) : Prop where
  get : ∀ id row, rows.get id = some row → ∃ row', rows'.get id = some row' ∧ row.Follows row'
  indexed : rows.Indexed → rows'.Indexed

theorem indexed_modify (hf : ∀ row : Execution, row.Follows (f row)) (h : rows.Indexed) :
    (rows.modify executionId f).Indexed := by
  have hmem : ∀ row' ∈ rows.modify executionId f, ∃ row ∈ rows, row.Follows row' := by
    intro row' hrow'
    obtain ⟨row, hrow, rfl⟩ := List.mem_map.1 hrow'
    refine ⟨row, hrow, ?_⟩
    split_ifs
    · exact hf row
    · exact follows_refl
  refine ⟨fun row' hrow' => ?_, fun row₁ h₁ row₂ h₂ key hk₁ hk₂ hw => ?_⟩
  · obtain ⟨row, hrow, rfl⟩ := List.mem_map.1 hrow'
    rw [get_modify fun row => (hf row).executionId]
    by_cases hid : row.executionId = executionId
    · rw [if_pos hid, (hf row).executionId, if_pos hid, h.primary row hrow, Option.map_some]
    · rw [if_neg hid, if_neg hid, h.primary row hrow]
  · obtain ⟨old₁, hold₁, hf₁⟩ := hmem row₁ h₁
    obtain ⟨old₂, hold₂, hf₂⟩ := hmem row₂ h₂
    rw [hf₁.executionId, hf₂.executionId]
    rw [hf₁.idempotencyKey] at hk₁
    rw [hf₂.idempotencyKey] at hk₂
    rw [hf₁.workspaceId, hf₂.workspaceId] at hw
    exact h.keys old₁ hold₁ old₂ hold₂ key hk₁ hk₂ hw

theorem follows_modify (hf : ∀ row : Execution, row.Follows (f row)) : rows.Follows (rows.modify executionId f) := by
  refine ⟨fun id row hrow => ?_, indexed_modify hf⟩
  rw [get_modify fun row => (hf row).executionId, hrow]
  by_cases hid : id = executionId
  · rw [if_pos hid]
    exact ⟨f row, rfl, hf row⟩
  · rw [if_neg hid]
    exact ⟨row, rfl, follows_refl⟩

theorem follows_update (ht : execution.isTerminal = true) : rows.Follows (rows.update execution) :=
  follows_modify fun _ => follows_updated ht

theorem follows_claimRow : rows.Follows (rows.claim executionId runtimeId startedAt) :=
  follows_modify fun _ => follows_claim

theorem get_insert_new (h : rows.get row.executionId = none) : (rows.insert row).get row.executionId = some row := by
  rw [get_insertExecution, h, if_pos rfl, Option.none_or]

theorem get_insert_old {old : Execution} (h : rows.get executionId = some old) :
    (rows.insert row).get executionId = some old := by
  rw [get_insertExecution, h, Option.some_or]

theorem get_insert_other (h : row.executionId ≠ executionId) : (rows.insert row).get executionId = rows.get executionId := by
  rw [get_insertExecution, if_neg h, Option.or_none]

theorem indexed_insert (h : rows.Indexed) (hnone : rows.get row.executionId = none) (hfree : rows.KeyFree row) :
    (rows.insert row).Indexed := by
  have hnew : ∀ old ∈ rows, ∀ key, old.idempotencyKey = some key → row.idempotencyKey = some key →
      old.workspaceId = row.workspaceId → False := by
    intro old hold key hk hk' hw
    have hnone := List.find?_eq_none.1 (hfree key hk') old hold
    simp [hk, hw] at hnone
  refine ⟨fun old hold => ?_, fun row₁ h₁ row₂ h₂ key hk₁ hk₂ hw => ?_⟩
  · rcases List.mem_append.1 hold with hold | hold
    · exact get_insert_old (h.primary old hold)
    · rw [List.mem_singleton.1 hold]
      exact get_insert_new hnone
  · rcases List.mem_append.1 h₁ with m₁ | m₁
    · rcases List.mem_append.1 h₂ with m₂ | m₂
      · exact h.keys row₁ m₁ row₂ m₂ key hk₁ hk₂ hw
      · obtain rfl := List.mem_singleton.1 m₂
        exact (hnew row₁ m₁ key hk₁ hk₂ hw).elim
    · obtain rfl := List.mem_singleton.1 m₁
      rcases List.mem_append.1 h₂ with m₂ | m₂
      · exact (hnew row₂ m₂ key hk₂ hk₁ hw.symm).elim
      · obtain rfl := List.mem_singleton.1 m₂
        rfl

theorem listActive_modify {workspaceId : String} (hf : ∀ row : Execution, row.Follows (f row)) :
    ((rows.modify executionId f).listActive workspaceId).length ≤ (rows.listActive workspaceId).length := by
  unfold ExecutionRows.listActive ExecutionRows.modify
  rw [← List.countP_eq_length_filter, ← List.countP_eq_length_filter, List.countP_map]
  refine List.countP_mono_left fun row _ h => ?_
  have hrow : row.Follows (if row.executionId = executionId then f row else row) := by
    split_ifs
    · exact hf row
    · exact follows_refl
  simp only [Function.comp, decide_eq_true_eq] at h ⊢
  refine ⟨by rw [← hrow.workspaceId, h.1], ?_⟩
  by_contra hend
  rw [hrow.ended (by simpa using hend)] at h
  cases h.2

theorem listActive_insert {workspaceId : String} : ((rows.insert row).listActive workspaceId).length =
    (rows.listActive workspaceId).length + if row.workspaceId = workspaceId ∧ row.isTerminal = false then 1 else 0 := by
  unfold ExecutionRows.listActive ExecutionRows.insert
  rw [List.filter_append, List.length_append]
  by_cases h : row.workspaceId = workspaceId ∧ row.isTerminal = false <;> simp [h]

end Executions

/-! ## Environment snapshots -/

section Revisions

/-- A row after `update_revision` with `revision`. -/
def RuntimeImageRevision.updated (row revision : RuntimeImageRevision) : RuntimeImageRevision :=
  { row with
    status := revision.status
    providerSnapshotRef := revision.providerSnapshotRef
    error := revision.error
    validationMetadata := revision.validationMetadata
    readyAt := revision.readyAt }

def RuntimeImageRevision.IsAt (row : RuntimeImageRevision) (revisionId workspaceId : String) : Prop :=
  row.revisionId = revisionId ∧ row.workspaceId = workspaceId

instance (row : RuntimeImageRevision) (revisionId workspaceId : String) : Decidable (row.IsAt revisionId workspaceId) := by
  unfold RuntimeImageRevision.IsAt
  infer_instance

end Revisions

end Transform.Workspaces
