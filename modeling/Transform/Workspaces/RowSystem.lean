import Transform.Lib.Watch
import Transform.Workspaces.Service

/-!
# Workspaces.RowSystem — who writes the row of a workspace

A start, a stop and a submit load the workspace, do their work, and write the whole entity back with its activity
recorded; an edit, an archive, a reactivation and a deletion write it back with what they change.  The UPDATE sets every
column and tests none of them.  Any number of these calls run interleaved statement by statement, with any call raising;
`RowWorld` keeps the rows, the executions created, and of each call what it last loaded.
-/

namespace Transform.Workspaces

open Lib Conversions

/-! ## The system -/

section System

/-- The calls that write the row of a workspace. -/
inductive RowParty
  | start (workspaceId : String) (userId : ℤ)
  | stop (workspaceId : String) (userId : ℤ) (force : Bool)
  | submit (req : SubmitRequest)
  | update (workspaceId : String) (userId : ℤ) (edit : WorkspaceEdit)
  | archive (workspaceId : String) (userId : ℤ)
  | reactivate (workspaceId : String) (userId : ℤ)
  | delete (workspaceId : String) (userId : ℤ)

namespace RowParty

def program (ctx : WorkspaceContext) : RowParty → Proc WorkspaceSig Unit
  | .start workspaceId userId => thread (startRuntime ctx workspaceId userId)
  | .stop workspaceId userId force => thread (stopRuntime workspaceId userId force)
  | .submit req => thread (Workspaces.submit ctx req)
  | .update workspaceId userId edit => thread (updateWorkspace workspaceId userId edit)
  | .archive workspaceId userId => thread (archiveWorkspace workspaceId userId)
  | .reactivate workspaceId userId => thread (reactivateWorkspace workspaceId userId)
  | .delete workspaceId userId => thread (deleteWorkspace workspaceId userId)

/-- The calls that only record activity. -/
def isActivity : RowParty → Bool
  | .start _ _ | .stop _ _ _ | .submit _ => true
  | _ => false

end RowParty

/-- A row after `update_workspace` with `workspace`. -/
def Workspace.written (row workspace : Workspace) : Workspace :=
  { row with
    name := workspace.name
    description := workspace.description
    runtimeConfig := workspace.runtimeConfig
    state := workspace.state
    executionCount := workspace.executionCount
    lastActivityAt := workspace.lastActivityAt }

/-- The rows, and the ids of the executions stored.  Beside them: the executions created in each workspace, the calls
that have created one and not yet written its count, what each call last loaded, whom an id was issued to, and the calls
that have begun. -/
structure RowWorld where
  rows : String → Option Workspace
  executions : List String := []
  created : String → ℕ := fun _ => 0
  pending : String → List ℕ := fun _ => []
  seen : ℕ → Option Workspace := fun _ => none
  issued : String → Option ℕ := fun _ => none
  begun : List ℕ := []

namespace RowWorld

variable (w : RowWorld)

def owned (workspaceId : String) (userId : ℤ) : Option Workspace := (w.rows workspaceId).filter (·.userId = userId)

/-- The rows after `update_workspace`: every column is set, `WHERE workspace_id AND user_id`. -/
def write (workspace : Workspace) : RowWorld :=
  { w with
    rows := Function.update w.rows workspace.workspaceId ((w.rows workspace.workspaceId).map fun row =>
      if row.userId = workspace.userId then row.written workspace else row) }

/-- The call has come to the UPDATE of the row, which counts what it has created. -/
def counted (i : ℕ) (workspaceId : String) : RowWorld :=
  { w with pending := Function.update w.pending workspaceId ((w.pending workspaceId).erase i) }

/-- An execution is stored. -/
def store (row : Execution) : RowWorld :=
  { w with
    executions := row.executionId :: w.executions
    created := Function.update w.created row.workspaceId (w.created row.workspaceId + 1) }

/-- The call is to count an execution. -/
def awaited (i : ℕ) (workspaceId : String) : RowWorld :=
  { w with pending := Function.update w.pending workspaceId (i :: w.pending workspaceId) }

/-- The rows without the workspace, if the user owns it. -/
def remove (workspaceId : String) (userId : ℤ) : RowWorld :=
  { w with
    rows := Function.update w.rows workspaceId ((w.rows workspaceId).filter (·.userId ≠ userId)) }

/-- What an exchange does. -/
def apply (i : ℕ) : Event WorkspaceSig → RowWorld
  | ⟨.uuid4, .ok id, _, _⟩ => { w with issued := Function.update w.issued id (some i) }
  | ⟨.getWorkspace _ _, .ok found, _, _⟩ => { w with seen := Function.update w.seen i found }
  | ⟨.updateWorkspace workspace, _, true, _⟩ => (w.write workspace).counted i workspace.workspaceId
  | ⟨.updateWorkspace workspace, _, false, _⟩ => w.counted i workspace.workspaceId
  | ⟨.insertExecution row, .ok _, _, _⟩ => (w.store row).awaited i row.workspaceId
  | ⟨.insertExecution row, .error _, true, _⟩ => w.store row
  | ⟨.deleteWorkspace workspaceId userId, _, true, _⟩ => w.remove workspaceId userId
  | _ => w

/-- The row of a workspace is read as it stands, under its owner; ids are new, an execution that is found is stored, and
a unique index refuses without effect.  Every other answer is left open. -/
def Allowed : Event WorkspaceSig → Prop
  | ⟨.uuid4, .ok id, _, _⟩ => w.issued id = none ∧ id ∉ w.executions
  | ⟨.getWorkspace workspaceId userId, .ok found, _, _⟩ => found = w.owned workspaceId userId
  | ⟨.findExecutionByKey _ _, .ok (some row), _, _⟩ => row.executionId ∈ w.executions
  | ⟨.insertExecution _, .error e, took, _⟩ => e.name = "IntegrityError" → took = false
  | _ => True

abbrev Exchange := Event WorkspaceSig

instance decidableAllowed (ev : Exchange) : Decidable (w.Allowed ev) := by
  unfold Allowed
  split <;> infer_instance

end RowWorld

/-- The calls over the rows; each has a number of its own. -/
def rowSystem (ctx : WorkspaceContext) : Sys WorkspaceSig where
  World := RowWorld
  Tag := RowParty
  spawn w i party p w' := i ∉ w.begun ∧ w' = { w with begun := i :: w.begun } ∧ p = party.program ctx
  Allowed w _ _ ev := w.Allowed ev
  apply w i _ ev := w.apply i ev

/-- Nothing runs; the rows are any under their keys, and each counts the executions of its workspace. -/
def RowStart {ctx : WorkspaceContext} (c : (rowSystem ctx).Config) : Prop :=
  (∀ i, c.threads i = none) ∧ ∃ (rows : String → Option Workspace) (executions : List String) (created : String → ℕ),
    (∀ id row, rows id = some row → row.workspaceId = id ∧ row.executionCount = created id) ∧
    c.world = ({ rows, executions, created } : RowWorld)

end System

/-! ## What a call asks -/

section Monitor

/-- What a call knows: the workspace it loaded, the id it was issued and has not stored, and the workspace in which it
has created an execution that it has not counted. -/
structure RowGrip where
  seen : Option Workspace := none
  fresh : Option String := none
  uncounted : Option String := none

def rowStep (g : RowGrip) : Event WorkspaceSig → RowGrip
  | ⟨.uuid4, .ok id, _, _⟩ => { g with fresh := some id }
  | ⟨.getWorkspace _ _, .ok found, _, _⟩ => { g with seen := found }
  | ⟨.updateWorkspace _, _, _, _⟩ => { g with uncounted := none }
  | ⟨.insertExecution row, .ok _, _, _⟩ => { g with fresh := none, uncounted := some row.workspaceId }
  | ⟨.insertExecution _, .error _, true, _⟩ => { g with fresh := none }
  | _ => g

/-- The entity that a call writes back, made of the one it loaded: an activity touches it, a submit counts one execution
more, and what else is written keeps the count. -/
def Recorded (loaded workspace : Workspace) : RowParty → Prop
  | .start _ _ | .stop _ _ _ => ∃ now, workspace = loaded.touch now
  | .submit _ => ∃ now, workspace = { loaded with executionCount := loaded.executionCount + 1 }.touch now
  | _ => workspace.workspaceId = loaded.workspaceId ∧ workspace.userId = loaded.userId ∧
      workspace.executionCount = loaded.executionCount

/-- What a call has created and not counted when it comes to its UPDATE. -/
def RowParty.counts (loaded : Workspace) : RowParty → Option String
  | .submit _ => some loaded.workspaceId
  | _ => none

/-- A call writes back the workspace it loaded, and creates an execution of that workspace under a new id. -/
def RowPermitted (party : RowParty) (g : RowGrip) : WorkspaceOp → Prop
  | .updateWorkspace workspace => ∃ loaded, g.seen = some loaded ∧ Recorded loaded workspace party ∧
      g.uncounted = party.counts loaded
  | .insertExecution row => g.fresh = some row.executionId ∧ g.uncounted = none
  | _ => True

def rowMonitor (party : RowParty) : Monitor WorkspaceSig RowGrip where
  pre := RowPermitted party
  rely g ev := match ev with
    | ⟨.getWorkspace workspaceId _, .ok (some row), _, _⟩ => row.workspaceId = workspaceId
    | ⟨.findExecutionByKey _ _, .ok (some row), _, _⟩ => g.fresh ≠ some row.executionId
    | ⟨.insertExecution _, .error e, took, _⟩ => e.name = "IntegrityError" → took = false
    | _ => True
  step := rowStep

variable {ctx : WorkspaceContext} {party : RowParty} {g : RowGrip} {workspace : Workspace} {runtime : WorkspaceRuntime}
  {workspaceId : String} {userId : ℤ}

/-- The calls that leave all that a call knows but its new id. -/
def IsBeside : WorkspaceOp → Prop
  | .getWorkspace _ _ | .updateWorkspace _ | .insertExecution _ => False
  | _ => True

theorem beside_of_container {op : WorkspaceOp} (h : IsContainerOp op) : IsBeside op := by
  cases op with
  | getWorkspace _ _ | updateWorkspace _ | insertExecution _ => exact h
  | _ => trivial

/-- The same but for the new id. -/
def RowGrip.Alike (g g' : RowGrip) : Prop := g'.seen = g.seen ∧ g'.uncounted = g.uncounted

theorem row_beside {α : Type} {p : WorkspaceAct α} (hp : p.Only IsBeside) :
    wpe (rowMonitor party) p (fun _ g' => g.Alike g') (fun _ g' => g.Alike g') g := by
  refine wpe_of_only_inv (R := fun g' => g.Alike g') hp (fun g' op _ h => ?_) (fun g' ev hg h _ => ?_)
    (fun _ _ h => h) (fun _ _ h => h) ⟨rfl, rfl⟩
  · cases op with
    | updateWorkspace _ | insertExecution _ => exact h.elim
    | _ => trivial
  · obtain ⟨op, out, took, hk⟩ := ev
    cases op with
    | uuid4 =>
      rcases out with e | id
      · exact hg
      · exact hg
    | getWorkspace _ _ | updateWorkspace _ | insertExecution _ => exact h.elim
    | _ => exact hg

/-- Calls that leave what a call knows, before the rest. -/
theorem wpe_beside {α β : Type} {p : WorkspaceAct α} {f : α → WorkspaceAct β} {Q : β → RowGrip → Prop}
    (hp : p.Only IsBeside)
    (hf : ∀ a g', g.Alike g' → wpe (rowMonitor party) (f a) Q (fun _ _ => True) g') :
    wpe (rowMonitor party) (p >>= f) Q (fun _ _ => True) g := by
  rw [wpe_bind]
  exact wpe_mono (row_beside hp) hf fun _ _ _ => trivial

theorem alike_trans {g₁ g₂ g₃ : RowGrip} (h : g₁.Alike g₂) (h' : g₂.Alike g₃) : g₁.Alike g₃ :=
  ⟨h'.1.trans h.1, h'.2.trans h.2⟩

theorem requireWorkspace_row : wpe (rowMonitor party) (requireWorkspace workspaceId userId)
    (fun found g' => g'.seen = some found ∧ g'.uncounted = g.uncounted ∧ found.workspaceId = workspaceId)
    (fun _ _ => True) g := by
  unfold requireWorkspace
  rw [wpe_bind]
  refine wpe_ask.2 ⟨trivial, fun found hrely => ?_, fun _ _ _ _ => trivial⟩
  rcases found with _ | found
  · trivial
  · exact ⟨rfl, rfl, hrely⟩

theorem requireUsable_row : wpe (rowMonitor party) (requireUsable workspaceId userId)
    (fun found g' => g'.seen = some found ∧ g'.uncounted = g.uncounted ∧ found.workspaceId = workspaceId)
    (fun _ _ => True) g := by
  unfold requireUsable
  rw [wpe_bind]
  refine wpe_mono requireWorkspace_row (fun found g' h => ?_) fun _ _ _ => trivial
  split_ifs
  · exact h
  · trivial

/-! ### Activity -/

theorem bringUp_row (hseen : g.seen = some workspace) (hnone : g.uncounted = none)
    (hrecorded : ∀ now, Recorded workspace (workspace.touch now) party) (hcounts : party.counts workspace = none) :
    wpe (rowMonitor party) (bringUp ctx workspace runtime) (fun _ _ => True) (fun _ _ => True) g := by
  unfold bringUp
  rw [wpe_bind]
  refine wpe_ofExcept (fun runtime' _ => ?_) fun _ _ => trivial
  refine wpe_beside (only_ask trivial) fun _ g₁ h₁ => ?_
  refine wpe_beside (only_mono (fun _ => beside_of_container)
    (only_catchProvider providerStart_only fun _ => recordRuntimeFailure_only)) fun started g₂ h₂ => ?_
  refine wpe_beside (only_ask trivial) fun now g₃ h₃ => ?_
  rw [wpe_bind]
  refine wpe_ofExcept (fun running _ => ?_) fun _ _ => trivial
  refine wpe_beside (only_ask trivial) fun _ g₄ h₄ => ?_
  refine wpe_beside (only_ask trivial) fun moment g₅ h₅ => ?_
  have hg : g.Alike g₅ := alike_trans h₁ (alike_trans h₂ (alike_trans h₃ (alike_trans h₄ h₅)))
  rw [wpe_bind]
  refine wpe_ask.2 ⟨⟨workspace, hg.1.trans hseen, hrecorded moment, ?_⟩, fun _ _ => trivial, fun _ _ _ _ => trivial⟩
  rw [hg.2, hnone, hcounts]

theorem startRuntime_row (hnone : g.uncounted = none) :
    wpe (rowMonitor (.start workspaceId userId)) (startRuntime ctx workspaceId userId) (fun _ _ => True)
      (fun _ _ => True) g := by
  unfold startRuntime
  rw [wpe_bind]
  refine wpe_mono requireUsable_row (fun found g₁ h₁ => ?_) fun _ _ _ => trivial
  obtain ⟨hseen, huncounted, -⟩ := h₁
  refine wpe_beside (only_mono (fun _ => beside_of_container) getOrCreateRuntime_only) fun runtime g₂ h₂ => ?_
  split_ifs
  · trivial
  · rw [wpe_bind]
    refine wpe_mono (bringUp_row (h₂.1.trans hseen) ?_ (fun now => ⟨now, rfl⟩) rfl) (fun _ _ _ => trivial)
      fun _ _ _ => trivial
    rw [h₂.2, huncounted, hnone]

theorem refuseActive_only {force : Bool} : (refuseActive workspaceId force).Only IsBeside := by
  unfold refuseActive
  split_ifs
  · exact only_pure
  · refine only_bind (only_ask trivial) fun active => ?_
    split_ifs
    · exact only_pure
    · exact only_throw

theorem takeDown_row (hseen : g.seen = some workspace) (hnone : g.uncounted = none)
    (hrecorded : ∀ now, Recorded workspace (workspace.touch now) party) (hcounts : party.counts workspace = none) :
    wpe (rowMonitor party) (takeDown workspace runtime) (fun _ _ => True) (fun _ _ => True) g := by
  unfold takeDown
  rw [wpe_bind]
  refine wpe_ofExcept (fun stopping _ => ?_) fun _ _ => trivial
  refine wpe_beside (only_ask trivial) fun _ g₁ h₁ => ?_
  refine wpe_beside (only_mono (fun _ => beside_of_container) stopContainer_only) fun _ g₂ h₂ => ?_
  refine wpe_beside (only_ask trivial) fun now g₃ h₃ => ?_
  rw [wpe_bind]
  refine wpe_ofExcept (fun stopped _ => ?_) fun _ _ => trivial
  refine wpe_beside (only_ask trivial) fun _ g₄ h₄ => ?_
  refine wpe_beside (only_ask trivial) fun moment g₅ h₅ => ?_
  have hg : g.Alike g₅ := alike_trans h₁ (alike_trans h₂ (alike_trans h₃ (alike_trans h₄ h₅)))
  rw [wpe_bind]
  refine wpe_ask.2 ⟨⟨workspace, hg.1.trans hseen, hrecorded moment, ?_⟩, fun _ _ => trivial, fun _ _ _ _ => trivial⟩
  rw [hg.2, hnone, hcounts]

theorem stopRuntime_row {force : Bool} (hnone : g.uncounted = none) :
    wpe (rowMonitor (.stop workspaceId userId force)) (stopRuntime workspaceId userId force) (fun _ _ => True)
      (fun _ _ => True) g := by
  unfold stopRuntime
  rw [wpe_bind]
  refine wpe_mono requireWorkspace_row (fun found g₁ h₁ => ?_) fun _ _ _ => trivial
  obtain ⟨hseen, huncounted, -⟩ := h₁
  refine wpe_beside (only_ask trivial) fun runtime g₂ h₂ => ?_
  split
  · trivial
  · refine wpe_beside refuseActive_only fun _ g₃ h₃ => ?_
    have hg : g₁.Alike g₃ := alike_trans h₂ h₃
    refine takeDown_row (hg.1.trans hseen) ?_ (fun now => ⟨now, rfl⟩) rfl
    rw [hg.2, huncounted, hnone]

theorem createExecution_row {execution : Execution} (hseen : g.seen = some workspace) (hnone : g.uncounted = none)
    (hfresh : g.fresh = some execution.executionId) :
    wpe (rowMonitor party) (createExecution execution)
      (fun stored g' => stored.executionId ≠ execution.executionId ∨
        (stored = execution ∧ g'.seen = some workspace ∧ g'.uncounted = some execution.workspaceId))
      (fun _ _ => True) g := by
  unfold createExecution
  rw [wpe_tryCatch, wpe_bind]
  refine wpe_ask.2 ⟨⟨hfresh, hnone⟩, fun _ _ => .inr ⟨rfl, hseen, rfl⟩, fun e took hk hrely => ?_⟩
  split
  · trivial
  · rename_i key hkey
    by_cases hname : e.name = "IntegrityError"
    · rw [if_pos hname, wpe_bind]
      obtain rfl : took = false := hrely hname
      refine wpe_ask.2 ⟨trivial, fun found hfound => ?_, fun _ _ _ _ => trivial⟩
      rcases found with _ | existing
      · trivial
      · -- an id that is not yet stored is not found
        have hne : g.fresh ≠ some existing.executionId := hfound
        refine .inl fun hsame => hne ?_
        rw [hfresh, hsame]
    · rw [if_neg hname]
      trivial

theorem failUnqueued_only {execution : Execution} : (failUnqueued execution).Only IsBeside :=
  only_bind (only_ask trivial) fun _ => only_bind only_ofExcept fun _ => only_bind (only_ask trivial) fun _ => only_throw

theorem enqueue_row {req : SubmitRequest} {execution : Execution} (hseen : g.seen = some workspace)
    (huncounted : g.uncounted = some workspace.workspaceId) :
    wpe (rowMonitor (.submit req)) (enqueue workspace execution) (fun _ _ => True) (fun _ _ => True) g := by
  unfold enqueue
  refine wpe_beside (only_ask trivial) fun now g₁ h₁ => ?_
  rw [wpe_bind]
  refine wpe_ask.2 ⟨⟨workspace, h₁.1.trans hseen, ⟨now, rfl⟩, ?_⟩, fun _ _ => ?_, fun _ _ _ _ => trivial⟩
  · rw [h₁.2, huncounted]
    rfl
  · refine wpe_beside (only_tryCatch (only_ask trivial) fun _ => failUnqueued_only) fun _ _ _ => ?_
    trivial

theorem submitNew_row {req : SubmitRequest} {source : String} {key : Option String} (hseen : g.seen = some workspace)
    (hnone : g.uncounted = none) (hid : workspace.workspaceId = req.workspaceId) :
    wpe (rowMonitor (.submit req)) (submitNew ctx req workspace source key) (fun _ _ => True) (fun _ _ => True) g := by
  unfold submitNew
  refine wpe_beside (only_ask trivial) fun active g₁ h₁ => ?_
  split_ifs
  · trivial
  · rw [wpe_bind]
    refine wpe_ask.2 ⟨trivial, fun executionId _ => ?_, fun _ _ _ _ => trivial⟩
    rw [wpe_bind]
    refine wpe_mono (createExecution_row (h₁.1.trans hseen) (h₁.2.trans hnone) rfl) (fun stored g₂ h₂ => ?_)
      fun _ _ _ => trivial
    rcases h₂ with hother | ⟨rfl, hseen', huncounted⟩
    · rw [if_pos hother]
      trivial
    · rw [if_neg (not_not.2 rfl)]
      refine enqueue_row hseen' ?_
      rw [huncounted, hid]

theorem submit_row {req : SubmitRequest} (hnone : g.uncounted = none) :
    wpe (rowMonitor (.submit req)) (submit ctx req) (fun _ _ => True) (fun _ _ => True) g := by
  unfold submit
  rw [wpe_bind]
  refine wpe_mono requireUsable_row (fun found g₁ h₁ => ?_) fun _ _ _ => trivial
  obtain ⟨hseen, huncounted, hid⟩ := h₁
  rw [wpe_bind]
  refine wpe_ofExcept (fun source _ => ?_) fun _ _ => trivial
  refine wpe_beside (only_mono (fun _ => beside_of_container) checkPolicy_only) fun _ g₂ h₂ => ?_
  have hnew : ∀ key g₃, g₂.Alike g₃ → wpe (rowMonitor (.submit req)) (submitNew ctx req found source key)
      (fun _ _ => True) (fun _ _ => True) g₃ := by
    intro key g₃ h₃
    have hg : g₁.Alike g₃ := alike_trans h₂ h₃
    refine submitNew_row (hg.1.trans hseen) ?_ hid
    rw [hg.2, huncounted, hnone]
  split
  · exact hnew none g₂ ⟨rfl, rfl⟩
  · refine wpe_beside (only_ask trivial) fun existing g₃ h₃ => ?_
    rcases existing with _ | existing
    · exact hnew _ g₃ h₃
    · trivial

/-! ### Edits -/

theorem transition_recorded {workspace' : Workspace} {target : WorkspaceState}
    (h : workspace.transition target = .ok workspace') : workspace' = { workspace with state := target } := by
  unfold Workspace.transition at h
  split_ifs at h
  cases h
  rfl

theorem edited_recorded {workspace' : Workspace} {edit : WorkspaceEdit} (h : workspace.edited edit = .ok workspace') :
    workspace'.workspaceId = workspace.workspaceId ∧ workspace'.userId = workspace.userId ∧
      workspace'.executionCount = workspace.executionCount := by
  unfold Workspace.edited at h
  obtain ⟨renamed, hrenamed, h⟩ := bind_ok h
  obtain ⟨described, hdescribed, h⟩ := bind_ok h
  have h₁ : ∃ name, renamed = { workspace with name } := by
    rcases hname : edit.name with _ | raw
    · rw [hname] at hrenamed
      cases hrenamed
      exact ⟨_, rfl⟩
    · rw [hname] at hrenamed
      obtain ⟨name, -, hrenamed⟩ := bind_ok hrenamed
      cases hrenamed
      exact ⟨name, rfl⟩
  have h₂ : ∃ description, described = { renamed with description } := by
    rcases hdescription : edit.description with _ | raw
    · rw [hdescription] at hdescribed
      cases hdescribed
      exact ⟨_, rfl⟩
    · rw [hdescription] at hdescribed
      obtain ⟨description, -, hdescribed⟩ := bind_ok hdescribed
      cases hdescribed
      exact ⟨description, rfl⟩
  obtain ⟨name, rfl⟩ := h₁
  obtain ⟨description, rfl⟩ := h₂
  cases h
  rcases edit.runtimeConfig with _ | config
  · exact ⟨rfl, rfl, rfl⟩
  · exact ⟨rfl, rfl, rfl⟩

theorem updateWorkspace_row {edit : WorkspaceEdit} (hnone : g.uncounted = none) :
    wpe (rowMonitor (.update workspaceId userId edit)) (updateWorkspace workspaceId userId edit) (fun _ _ => True)
      (fun _ _ => True) g := by
  unfold updateWorkspace
  rw [wpe_bind]
  refine wpe_mono requireUsable_row (fun found g₁ h₁ => ?_) fun _ _ _ => trivial
  obtain ⟨hseen, huncounted, -⟩ := h₁
  refine wpe_beside (only_mono (fun _ => beside_of_container) refuseBusy_only) fun _ g₂ h₂ => ?_
  rw [wpe_bind]
  refine wpe_ofExcept (fun edited hedited => ?_) fun _ _ => trivial
  rw [wpe_bind]
  refine wpe_ask.2 ⟨⟨found, h₂.1.trans hseen, edited_recorded hedited, ?_⟩, fun _ _ => trivial, fun _ _ _ _ => trivial⟩
  rw [h₂.2, huncounted, hnone]
  rfl

theorem moved_row {target : WorkspaceState} (hnone : g.uncounted = none) (hcounts : ∀ loaded, party.counts loaded = none)
    (hrecorded : ∀ loaded, Recorded loaded { loaded with state := target } party) :
    wpe (rowMonitor party) (do
      let workspace ← requireWorkspace workspaceId userId
      let workspace ← .ofExcept (workspace.transition target)
      let _ ← port (.updateWorkspace workspace)
      return workspace) (fun _ _ => True) (fun _ _ => True) g := by
  rw [wpe_bind]
  refine wpe_mono requireWorkspace_row (fun found g₁ h₁ => ?_) fun _ _ _ => trivial
  obtain ⟨hseen, huncounted, -⟩ := h₁
  rw [wpe_bind]
  refine wpe_ofExcept (fun moved hmoved => ?_) fun _ _ => trivial
  obtain rfl := transition_recorded hmoved
  rw [wpe_bind]
  refine wpe_ask.2 ⟨⟨found, hseen, hrecorded found, ?_⟩, fun _ _ => trivial, fun _ _ _ _ => trivial⟩
  rw [huncounted, hnone, hcounts]

theorem deleteWorkspace_row (hnone : g.uncounted = none) :
    wpe (rowMonitor (.delete workspaceId userId)) (deleteWorkspace workspaceId userId) (fun _ _ => True)
      (fun _ _ => True) g := by
  have hrest : ∀ g' : RowGrip, wpe (rowMonitor (.delete workspaceId userId)) (do
      deleteContainer workspaceId
      catchProvider (port (.provider (.deleteWorkspaceState workspaceId))) fun _ => return ()
      let _ ← port (.deleteRevisions workspaceId)
      let _ ← port (.deleteExecutions workspaceId)
      let _ ← port (.deleteRuntime workspaceId)
      let _ ← port (.deleteWorkspace workspaceId userId)
      return ()) (fun _ _ => True) (fun _ _ => True) g' := by
    intro g'
    refine wpe_beside (only_mono (fun _ => beside_of_container) deleteContainer_only) fun _ _ _ => ?_
    refine wpe_beside (only_catchProvider (only_ask trivial) fun _ => only_pure) fun _ _ _ => ?_
    refine wpe_beside (only_ask trivial) fun _ _ _ => ?_
    refine wpe_beside (only_ask trivial) fun _ _ _ => ?_
    refine wpe_beside (only_ask trivial) fun _ _ _ => ?_
    refine wpe_beside (only_ask trivial) fun _ _ _ => ?_
    trivial
  unfold deleteWorkspace
  rw [wpe_bind]
  refine wpe_mono requireWorkspace_row (fun found g₁ h₁ => ?_) fun _ _ _ => trivial
  obtain ⟨hseen, huncounted, -⟩ := h₁
  rw [wpe_bind]
  unfold markDeleting
  split_ifs
  · exact hrest g₁
  · rw [wpe_bind]
    refine wpe_ofExcept (fun marked hmarked => ?_) fun _ _ => trivial
    obtain rfl := transition_recorded hmarked
    rw [wpe_bind]
    refine wpe_ask.2 ⟨⟨found, hseen, ⟨rfl, rfl, rfl⟩, ?_⟩, fun _ _ => hrest _, fun _ _ _ _ => trivial⟩
    rw [huncounted, hnone]
    rfl

/-- **What a call asks**: whatever it is answered, it writes back the workspace it loaded, and counts what it created. -/
theorem row_permitted (party : RowParty) (hnone : g.uncounted = none) :
    wp (rowMonitor party) (party.program ctx) (fun _ _ => True) g := by
  cases party with
  | start workspaceId userId => exact wp_thread_of_wpe (startRuntime_row hnone)
  | stop workspaceId userId force => exact wp_thread_of_wpe (stopRuntime_row hnone)
  | submit req => exact wp_thread_of_wpe (submit_row hnone)
  | update workspaceId userId edit => exact wp_thread_of_wpe (updateWorkspace_row hnone)
  | archive workspaceId userId =>
    exact wp_thread_of_wpe (moved_row hnone (fun _ => rfl) fun _ => ⟨rfl, rfl, rfl⟩)
  | reactivate workspaceId userId =>
    exact wp_thread_of_wpe (moved_row hnone (fun _ => rfl) fun _ => ⟨rfl, rfl, rfl⟩)
  | delete workspaceId userId => exact wp_thread_of_wpe (deleteWorkspace_row hnone)

end Monitor

end Transform.Workspaces
