import Transform.Conversions.Job

/-!
# Access.Scope — the scopes an agent may hold

The capabilities, the marker `offline_access` that a request may carry beside them, and `normalizeScopes`, through which
every scope string is read.  What is stored as words is read back as it was (`mem_normalizeScopes_values`).
-/

namespace Transform.Access

open Conversions

inductive AgentScope
  | documentsRead
  | documentsConvert
  | documentsWrite
  | documentsDelete
  | workspacesRead
  | workspacesExecute
  deriving DecidableEq, Repr

def AgentScope.value : AgentScope → String
  | .documentsRead => "documents.read"
  | .documentsConvert => "documents.convert"
  | .documentsWrite => "documents.write"
  | .documentsDelete => "documents.delete"
  | .workspacesRead => "workspaces.read"
  | .workspacesExecute => "workspaces.execute"

def allScopes : List AgentScope :=
  [.documentsRead, .documentsConvert, .documentsWrite, .documentsDelete, .workspacesRead, .workspacesExecute]

/-- The request marker. -/
def offlineAccess : String := "offline_access"

def knownRequestScopes : List String := allScopes.map (·.value) ++ [offlineAccess]

def defaultScopes : List AgentScope := [.documentsRead, .documentsConvert, .documentsWrite]

/-- The known scopes among the values, in canonical order. -/
def normalizeScopes (values : List String) : List AgentScope :=
  let requested := (values.map strip).filter (· ≠ "")
  allScopes.filter fun scope => scope.value ∈ requested

def isSubset (requested allowed : List AgentScope) : Bool := requested.all (· ∈ allowed)

theorem mem_allScopes (scope : AgentScope) : scope ∈ allScopes := by
  cases scope <;> decide

theorem strip_value (scope : AgentScope) : strip scope.value = scope.value := by
  cases scope <;> rfl

theorem value_ne_empty (scope : AgentScope) : scope.value ≠ "" := by
  cases scope <;> decide

theorem value_inj {scope scope' : AgentScope} (h : scope.value = scope'.value) : scope = scope' := by
  revert h
  cases scope <;> cases scope' <;> decide

theorem mem_normalizeScopes {values : List String} {scope : AgentScope} :
    scope ∈ normalizeScopes values ↔ ∃ value ∈ values, strip value = scope.value := by
  unfold normalizeScopes
  simp only [List.mem_filter, decide_eq_true_eq, List.mem_map]
  constructor
  · rintro ⟨-, h, -⟩
    exact h
  · intro h
    exact ⟨mem_allScopes scope, h, value_ne_empty scope⟩

/-- Scopes written as words are read back. -/
@[simp] theorem mem_normalizeScopes_values {scopes : List AgentScope} {scope : AgentScope} :
    scope ∈ normalizeScopes (scopes.map (·.value)) ↔ scope ∈ scopes := by
  rw [mem_normalizeScopes]
  constructor
  · rintro ⟨value, hvalue, hstrip⟩
    obtain ⟨scope', hmem, rfl⟩ := List.mem_map.1 hvalue
    rw [strip_value] at hstrip
    rwa [← value_inj hstrip]
  · intro h
    exact ⟨scope.value, List.mem_map_of_mem h, strip_value scope⟩

theorem isSubset_iff {requested allowed : List AgentScope} :
    isSubset requested allowed = true ↔ ∀ scope ∈ requested, scope ∈ allowed := by
  simp [isSubset]

theorem normalizeScopes_values_ne_nil {scopes : List AgentScope} (h : scopes ≠ []) :
    normalizeScopes (scopes.map (·.value)) ≠ [] := by
  intro hnil
  obtain ⟨scope, hscope⟩ := List.exists_mem_of_ne_nil _ h
  have hmem : scope ∈ normalizeScopes (scopes.map (·.value)) := mem_normalizeScopes_values.2 hscope
  rw [hnil] at hmem
  exact List.not_mem_nil hmem

end Transform.Access
