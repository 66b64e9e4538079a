import Transform.Access.Scope

/-!
# Access.Records — clients, grants, authorization codes and tokens

The records of the authorization server as the service reads them, and the rows they are read from.  The scopes of a
row are the words of its column.  A flush writes the columns that were changed since the row was loaded
(`GrantRow.flush`).
-/

namespace Transform.Access

open Conversions

/-! ## Grants -/

section Grants

inductive AgentGrantStatus
  | active
  | paused
  | revoked
  deriving DecidableEq, Repr

inductive FolderAccess
  | all
  | folder
  deriving DecidableEq, Repr

inductive HistoryScope
  | agent
  | all
  deriving DecidableEq, Repr

/-- One user's consent for one client. -/
structure AgentGrant where
  id : String
  userId : ℤ
  clientId : String
  clientName : String
  scopes : List AgentScope
  status : AgentGrantStatus := .active
  resource : Option String := none
  folderAccess : FolderAccess := .all
  folderId : Option String := none
  historyScope : HistoryScope := .agent
  createdAt : Option Instant := none
  lastUsedAt : Option Instant := none
  revokedAt : Option Instant := none
  pausedAt : Option Instant := none
  deriving DecidableEq, Repr

def AgentGrant.isActive (grant : AgentGrant) : Bool := grant.status = .active && 0 < grant.scopes.length

/-- A row of `mcp_agent_grants`. -/
structure GrantRow where
  id : String
  userId : ℤ
  clientId : String
  clientName : String
  scopes : List String
  status : AgentGrantStatus
  resource : Option String
  folderAccess : FolderAccess
  folderId : Option String
  historyScope : HistoryScope
  createdAt : Instant
  lastUsedAt : Option Instant := none
  revokedAt : Option Instant := none
  pausedAt : Option Instant := none
  deriving DecidableEq, Repr

def GrantRow.toGrant (row : GrantRow) : AgentGrant where
  id := row.id
  userId := row.userId
  clientId := row.clientId
  clientName := row.clientName
  scopes := normalizeScopes row.scopes
  status := row.status
  resource := row.resource
  folderAccess := row.folderAccess
  folderId := row.folderId
  historyScope := row.historyScope
  createdAt := some row.createdAt
  lastUsedAt := row.lastUsedAt
  revokedAt := row.revokedAt
  pausedAt := row.pausedAt

/-- A column after a flush: what was not changed since it was loaded is not written. -/
def flushed {α : Type} [DecidableEq α] (loaded new current : α) : α := if new = loaded then current else new

/-- The UPDATE of a row that was loaded as `loaded` and changed to `new`. -/
def GrantRow.flush (loaded new current : GrantRow) : GrantRow :=
  { current with
    clientName := flushed loaded.clientName new.clientName current.clientName
    scopes := flushed loaded.scopes new.scopes current.scopes
    status := flushed loaded.status new.status current.status
    resource := flushed loaded.resource new.resource current.resource
    folderAccess := flushed loaded.folderAccess new.folderAccess current.folderAccess
    folderId := flushed loaded.folderId new.folderId current.folderId
    historyScope := flushed loaded.historyScope new.historyScope current.historyScope
    revokedAt := flushed loaded.revokedAt new.revokedAt current.revokedAt
    pausedAt := flushed loaded.pausedAt new.pausedAt current.pausedAt }

/-- The interval in which a second use of a grant is not written. -/
def grantTouchInterval : ℤ := 5 * 60 * 1000000

end Grants

/-! ## Clients, codes and tokens -/

section Credentials

/-- A registered client. -/
structure OAuthClientRecord where
  clientId : String
  clientName : Option String := none
  redirectUris : List String := []
  scope : Option String := none
  deriving DecidableEq, Repr

structure AuthorizationCodeRecord where
  codeHash : String
  grantId : String
  clientId : String
  subject : String
  scopes : List AgentScope
  codeChallenge : String
  redirectUri : String
  resource : Option String
  expiresAt : Instant
  usedAt : Option Instant := none
  deriving DecidableEq, Repr

/-- A row of `mcp_oauth_codes`. -/
structure CodeRow where
  codeHash : String
  grantId : String
  clientId : String
  subject : String
  scopes : List String
  codeChallenge : String
  redirectUri : String
  resource : Option String
  expiresAt : Instant
  usedAt : Option Instant := none
  deriving DecidableEq, Repr

def CodeRow.toCode (row : CodeRow) : AuthorizationCodeRecord :=
  ⟨row.codeHash, row.grantId, row.clientId, row.subject, normalizeScopes row.scopes, row.codeChallenge, row.redirectUri,
    row.resource, row.expiresAt, row.usedAt⟩

def CodeRow.Redeemable (row : CodeRow) (now : Instant) : Prop := row.usedAt = none ∧ now < row.expiresAt

instance (row : CodeRow) (now : Instant) : Decidable (row.Redeemable now) := by
  unfold CodeRow.Redeemable
  infer_instance

inductive TokenKind
  | access
  | refresh
  deriving DecidableEq, Repr

structure TokenRecord where
  tokenHash : String
  grantId : String
  clientId : String
  subject : String
  kind : TokenKind
  scopes : List AgentScope
  expiresAt : Instant
  resource : Option String := none
  revokedAt : Option Instant := none
  deriving DecidableEq, Repr

/-- A row of `mcp_oauth_tokens`. -/
structure TokenRow where
  tokenHash : String
  grantId : String
  clientId : String
  subject : String
  kind : TokenKind
  scopes : List String
  expiresAt : Instant
  resource : Option String
  revokedAt : Option Instant := none
  deriving DecidableEq, Repr

def TokenRow.toToken (row : TokenRow) : TokenRecord :=
  ⟨row.tokenHash, row.grantId, row.clientId, row.subject, row.kind, normalizeScopes row.scopes, row.expiresAt,
    row.resource, row.revokedAt⟩

/-- What an exchange hands out. -/
structure IssuedTokens where
  accessToken : String
  expiresIn : ℤ
  scopes : List AgentScope
  refreshToken : Option String := none
  deriving DecidableEq, Repr

end Credentials

end Transform.Access
