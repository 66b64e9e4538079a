import Transform.Access.Ports

/-!
# Access.Service — the rules of the authorization server

Consent, the two exchanges, the check of an access token, and what a user may do with a connection.  A repository
method that reads a row and writes it back is two calls, and a commit may come between them.
-/

namespace Transform.Access

open Lib Conversions

/-! ## Refusals -/

section Refusals

/-- Go on only if the condition holds. -/
def ensure (holds : Bool) (e : AccessError) : Except AccessError Unit := if holds then .ok () else .error e

theorem ensure_ok {holds : Bool} {e : AccessError} {u : Unit} (h : ensure holds e = .ok u) : holds = true := by
  unfold ensure at h
  split_ifs at h with hh
  exact hh

def unknownClient (clientId : String) : AccessError :=
  ⟨"UnknownClientError", "invalid_request", s!"Client ID '{clientId}' is not registered."⟩

def invalidRedirectUri : AccessError :=
  ⟨"InvalidRedirectUriError", "invalid_request",
    "The redirect_uri does not match any registered redirect URI for this client."⟩

inductive ScopeReason
  | unknown
  | deployment
  | client

def invalidScope (scopes : List String) (reason : ScopeReason := .unknown) : AccessError :=
  let listed := " ".intercalate scopes
  let detail := match reason with
    | .client => s!"The application did not register for: {listed}. It must request these " ++
        "scopes when it registers with this server; reconnecting it will repeat the registration."
    | .deployment => s!"This deployment does not grant: {listed}. That is an operator setting, " ++
        "not something you can change by reconnecting."
    | .unknown => s!"Unknown scope(s): {listed}. Supported scopes are documents.read, " ++
        "documents.convert, documents.write, documents.delete, workspaces.read and workspaces.execute."
  ⟨"InvalidScopeError", "invalid_scope", detail⟩

def invalidTarget (ctx : AccessContext) (resource : Option String) : AccessError :=
  ⟨"InvalidTargetError", "invalid_target", s!"The requested resource {ctx.repr resource} is not this MCP server."⟩

def invalidGrant (description : String := "The authorization grant is invalid, expired or revoked.") : AccessError :=
  ⟨"InvalidGrantError", "invalid_grant", description⟩

def grantRevoked : AccessError :=
  ⟨"GrantRevokedError", "invalid_grant", "The user has revoked this application's access."⟩

def connectionState (description : String) : AccessError := ⟨"ConnectionStateError", "invalid_request", description⟩

def connectionEdit (description : String) : AccessError := ⟨"ConnectionEditError", "invalid_request", description⟩

end Refusals

/-! ## Rules -/

section Rules

/-- The scopes a client registered for; none where it registered without any. -/
def OAuthClientRecord.scopeValues (client : OAuthClientRecord) : List String := splitWhitespace (client.scope.getD "")

/-- Decide the scope set of an authorization request. -/
def resolveScopes (ctx : AccessContext) (client : OAuthClientRecord) (requested : Option (List String)) :
    Except AccessError (List AgentScope) := do
  let raw := ((requested.getD []).map strip).filter (· ≠ "")
  let unknown := raw.filter (· ∉ knownRequestScopes)
  ensure (unknown = []) (invalidScope unknown)
  let scopes := if raw = [] then defaultScopes else normalizeScopes raw
  let disallowed := scopes.filter (· ∉ ctx.grantable)
  ensure (disallowed = []) (invalidScope (disallowed.map (·.value)) .deployment)
  let outside := scopes.filter (·.value ∉ client.scopeValues)
  ensure (client.scopeValues = [] ∨ outside = []) (invalidScope (outside.map (·.value)) .client)
  .ok scopes

/-- Bind the request to this server's resource identifier. -/
def validateResource (ctx : AccessContext) (resource : Option String) : Except AccessError String :=
  let candidate := strip (resource.getD "")
  if candidate = "" then .ok ctx.resource
  else if rstripSlash candidate ≠ ctx.resource then .error (invalidTarget ctx resource)
  else .ok ctx.resource

def requireClient (clientId : String) : AccessAct OAuthClientRecord := do
  match ← call (.getClient clientId) with
  | none => .throw (unknownClient clientId)
  | some client => pure client

def ensureRedirectUri (client : OAuthClientRecord) (redirectUri : String) : Except AccessError Unit :=
  ensure (redirectUri ∈ client.redirectUris) invalidRedirectUri

def requireActiveGrant (grantId subject : String) : AccessAct AgentGrant := do
  match ← call (.getGrant grantId) with
  | none => .throw invalidGrant
  | some row =>
    let grant := row.toGrant
    Act.ofExcept (ensure (grant.userId.repr = subject) invalidGrant)
    Act.ofExcept (ensure grant.isActive grantRevoked)
    pure grant

def ensureResource (ctx : AccessContext) (bound : Option String) (presented : String) (resource : Option String) :
    Except AccessError Unit :=
  ensure (bound.all fun r => r = "" ∨ r = presented) (invalidTarget ctx resource)

end Rules

/-! ## Consent -/

section Consent

structure ApproveRequest where
  userId : ℤ
  clientId : String
  redirectUri : String
  requestedScopes : Option (List String) := none
  codeChallenge : String
  resource : Option String := none
  state : Option String := none
  folderAccess : FolderAccess := .all
  folderId : Option String := none
  historyScope : HistoryScope := .agent

def createdAtOf (grant : AgentGrant) : AccessAct Instant :=
  match grant.createdAt with
  | some createdAt => pure createdAt
  | none => call .now

def assertionError : AccessError := ⟨"AssertionError", "", ""⟩

def insertConsent (grant : AgentGrant) : AccessAct AgentGrant := do
  let createdAt ← createdAtOf grant
  call (.insertGrant
    { id := grant.id
      userId := grant.userId
      clientId := grant.clientId
      clientName := grant.clientName
      scopes := grant.scopes.map (·.value)
      status := .active
      resource := grant.resource
      folderAccess := grant.folderAccess
      folderId := grant.folderId
      historyScope := grant.historyScope
      createdAt := createdAt })
  match ← call (.selectGrant grant.userId grant.clientId) with
  | none => .throw assertionError
  | some stored => pure stored.toGrant

/-- The row of a renewed consent: a revocation and a pause are cleared. -/
def GrantRow.renewed (loaded : GrantRow) (grant : AgentGrant) : GrantRow :=
  { loaded with
    clientName := grant.clientName
    scopes := grant.scopes.map (·.value)
    status := .active
    resource := grant.resource
    folderAccess := grant.folderAccess
    folderId := grant.folderId
    historyScope := grant.historyScope
    revokedAt := none
    pausedAt := none }

def renewConsent (loaded : GrantRow) (grant : AgentGrant) : AccessAct AgentGrant := do
  call (.updateGrant loaded (loaded.renewed grant))
  match ← call (.selectGrant grant.userId grant.clientId) with
  | none => .throw assertionError
  -- the session still holds the row, and does not read it anew
  | some _ => pure (loaded.renewed grant).toGrant

def upsertGrant (grant : AgentGrant) : AccessAct AgentGrant := do
  match ← call (.selectGrant grant.userId grant.clientId) with
  | none => insertConsent grant
  | some loaded => renewConsent loaded grant

/-- Record consent, and mint the code the browser carries to the client. -/
def approve (ctx : AccessContext) (req : ApproveRequest) : AccessAct RedirectAnswer := do
  let client ← requireClient req.clientId
  Act.ofExcept (ensureRedirectUri client req.redirectUri)
  let scopes ← Act.ofExcept (resolveScopes ctx client req.requestedScopes)
  let resourceUrl ← Act.ofExcept (validateResource ctx req.resource)
  Act.ofExcept (ensure (req.codeChallenge ≠ "") (invalidGrant "A PKCE code_challenge is required."))
  let now ← call .now
  let id ← call .uuid4
  let grant ← upsertGrant
    { id := id
      userId := req.userId
      clientId := req.clientId
      clientName := (truthy client.clientName).getD req.clientId
      scopes := scopes
      status := .active
      resource := some resourceUrl
      folderAccess := req.folderAccess
      folderId := req.folderId
      historyScope := req.historyScope
      createdAt := some now }
  let code ← call .tokenUrlsafe
  call (.insertCode
    { codeHash := ctx.hashSecret code
      grantId := grant.id
      clientId := req.clientId
      subject := req.userId.repr
      scopes := scopes.map (·.value)
      codeChallenge := req.codeChallenge
      redirectUri := req.redirectUri
      resource := some resourceUrl
      expiresAt := now + ctx.codeTtl })
  pure ⟨req.redirectUri, code, req.state⟩

end Consent

/-! ## Exchanges -/

section Exchanges

/-- The row of a token that is issued under a grant. -/
def tokenRow (ctx : AccessContext) (grant : AgentGrant) (scopes : List AgentScope) (resource secret : String)
    (kind : TokenKind) (expiresAt : Instant) : TokenRow where
  tokenHash := ctx.hashSecret secret
  grantId := grant.id
  clientId := grant.clientId
  subject := grant.userId.repr
  kind := kind
  scopes := scopes.map (·.value)
  expiresAt := expiresAt
  resource := some resource

def issueRefresh (ctx : AccessContext) (grant : AgentGrant) (scopes : List AgentScope) (resource : String)
    (now : Instant) : AccessAct String := do
  let refreshToken ← call .tokenUrlsafe
  call (.insertToken (tokenRow ctx grant scopes resource refreshToken .refresh (now + ctx.refreshTtl)))
  pure refreshToken

/-- Mint an access token and, beside it, a refresh token. -/
def issue (ctx : AccessContext) (grant : AgentGrant) (scopes : List AgentScope) (resource : String) (now : Instant) :
    AccessAct IssuedTokens := do
  let accessToken ← call .tokenUrlsafe
  call (.insertToken (tokenRow ctx grant scopes resource accessToken .access (now + ctx.accessTtl)))
  let refreshToken ← issueRefresh ctx grant scopes resource now
  pure ⟨accessToken, ctx.accessTtl / 1000000, scopes, some refreshToken⟩

structure CodeRequest where
  clientId : String
  code : String
  redirectUri : Option String := none
  resource : Option String := none

def redeemCode (ctx : AccessContext) (req : CodeRequest) (record : AuthorizationCodeRecord) (now : Instant) :
    AccessAct IssuedTokens := do
  Act.ofExcept (ensure (record.clientId = req.clientId)
    (invalidGrant "The authorization code was issued to a different client."))
  Act.ofExcept (ensure (req.redirectUri.all (record.redirectUri = ·))
    (invalidGrant "The redirect_uri does not match the authorization request."))
  let presentedResource ← Act.ofExcept (validateResource ctx req.resource)
  Act.ofExcept (ensureResource ctx record.resource presentedResource req.resource)
  let grant ← requireActiveGrant record.grantId record.subject
  let scopes := record.scopes.filter (· ∈ grant.scopes)
  Act.ofExcept (ensure (scopes ≠ []) grantRevoked)
  issue ctx grant scopes presentedResource now

def exchangeCode (ctx : AccessContext) (req : CodeRequest) : AccessAct IssuedTokens := do
  let now ← call .now
  match ← call (.takeCode (ctx.hashSecret req.code) now) with
  | none => .throw (invalidGrant "The authorization code is invalid, expired or already used.")
  | some row => redeemCode ctx req row.toCode now

structure RefreshRequest where
  clientId : String
  refreshToken : String
  scopes : Option (List String) := none
  resource : Option String := none

/-- The scopes of the tokens to issue: those asked for, among the ones the token carries; all of these by default. -/
def narrowScopes (carried : List AgentScope) : Option (List String) → Except AccessError (List AgentScope)
  | none | some [] => .ok carried
  | some asked =>
    let requested := normalizeScopes asked
    if requested = [] ∨ isSubset requested carried = false then .error (invalidScope asked) else .ok requested

def rotateToken (ctx : AccessContext) (req : RefreshRequest) (record : TokenRecord) (now : Instant) :
    AccessAct IssuedTokens := do
  Act.ofExcept (ensure (record.kind = .refresh) (invalidGrant "The refresh token is invalid."))
  Act.ofExcept (ensure (record.revokedAt = none ∧ now < record.expiresAt)
    (invalidGrant "The refresh token is expired or revoked."))
  Act.ofExcept (ensure (record.clientId = req.clientId)
    (invalidGrant "The refresh token was issued to a different client."))
  let presentedResource ← Act.ofExcept (validateResource ctx req.resource)
  Act.ofExcept (ensureResource ctx record.resource presentedResource req.resource)
  let grant ← requireActiveGrant record.grantId record.subject
  let narrowed ← Act.ofExcept (narrowScopes record.scopes req.scopes)
  call (.revokeToken record.tokenHash now)
  issue ctx grant narrowed presentedResource now

/-- Redeem a refresh token, which is revoked. -/
def exchangeRefresh (ctx : AccessContext) (req : RefreshRequest) : AccessAct IssuedTokens := do
  let now ← call .now
  match ← call (.getToken (ctx.hashSecret req.refreshToken)) with
  | none => .throw (invalidGrant "The refresh token is invalid.")
  | some row => rotateToken ctx req row.toToken now

end Exchanges

/-! ## The check of an access token -/

section Loading

/-- Record the use of a grant, unless one was recorded in the interval. -/
def touchStale (grantId : String) (lastUsedAt : Option Instant) (now : Instant) : AccessAct Unit :=
  match lastUsedAt with
  | none => call (.touchGrant grantId now)
  | some lastUsed => if grantTouchInterval ≤ now - lastUsed then call (.touchGrant grantId now) else pure ()

def checkGrant (record : TokenRecord) (now : Instant) : AccessAct (Option TokenRecord) := do
  match ← call (.getGrant record.grantId) with
  | none => pure none
  | some row =>
    let grant := row.toGrant
    if grant.isActive = false ∨ isSubset record.scopes grant.scopes = false then pure none
    else do
      touchStale record.grantId grant.lastUsedAt now
      pure (some record)

/-- An access token that is neither revoked nor expired nor another server's. -/
def TokenRecord.Usable (ctx : AccessContext) (record : TokenRecord) (now : Instant) : Prop :=
  record.kind = .access ∧ record.revokedAt = none ∧ now < record.expiresAt ∧
    ∀ resource, record.resource = some resource → resource = ctx.resource

instance (ctx : AccessContext) (record : TokenRecord) (now : Instant) : Decidable (record.Usable ctx now) := by
  unfold TokenRecord.Usable
  rcases record.resource with _ | resource
  · exact decidable_of_iff (record.kind = .access ∧ record.revokedAt = none ∧ now < record.expiresAt) (by simp)
  · exact decidable_of_iff (record.kind = .access ∧ record.revokedAt = none ∧ now < record.expiresAt ∧
      resource = ctx.resource) (by simp)

/-- Resolve an access token to its record; `none` if it is unusable. -/
def loadAccessToken (ctx : AccessContext) (token : String) : AccessAct (Option TokenRecord) := do
  let now ← call .now
  match ← call (.getToken (ctx.hashSecret token)) with
  | none => pure none
  | some row => if row.toToken.Usable ctx now then checkGrant row.toToken now else pure none

end Loading

/-! ## Management -/

section Management

/-- Revoke a token; an unknown value is ignored. -/
def revokeToken (ctx : AccessContext) (token : String) : AccessAct Unit := do
  let now ← call .now
  call (.revokeToken (ctx.hashSecret token) now)

def markRevoked (loaded : GrantRow) : AccessAct (Option AgentGrant) :=
  if loaded.status = .revoked then pure (some loaded.toGrant)
  else do
    let revokedAt ← call .now
    let row := { loaded with status := .revoked, revokedAt := some revokedAt }
    call (.updateGrant loaded row)
    pure (some row.toGrant)

def revokeGrant (grantId : String) (userId : ℤ) : AccessAct (Option AgentGrant) := do
  match ← call (.selectOwned grantId userId) with
  | none => pure none
  | some loaded => markRevoked loaded

/-- Withdraw an application's access, and kill the tokens it was issued. -/
def revokeConnection (userId : ℤ) (grantId : String) : AccessAct (Option AgentGrant) := do
  let now ← call .now
  match ← revokeGrant grantId userId with
  | none => pure none
  | some grant =>
    let _ ← call (.revokeTokensForGrant grant.id now)
    pure (some grant)

def moveStatus (loaded : GrantRow) (status : AgentGrantStatus) (now : Instant) : AccessAct (Option AgentGrant) :=
  if loaded.status = .revoked then
    .throw ⟨"InvalidGrantTransition", "", "A revoked grant cannot be paused or resumed."⟩
  else if loaded.status = status then pure (some loaded.toGrant)
  else do
    let row := { loaded with status := status, pausedAt := if status = .paused then some now else none }
    call (.updateGrant loaded row)
    pure (some row.toGrant)

def setGrantStatus (grantId : String) (userId : ℤ) (status : AgentGrantStatus) (now : Instant) :
    AccessAct (Option AgentGrant) := do
  match ← call (.selectOwned grantId userId) with
  | none => pure none
  | some loaded => moveStatus loaded status now

def setStatus (userId : ℤ) (grantId : String) (status : AgentGrantStatus) : AccessAct (Option AgentGrant) :=
  (do
    let now ← call .now
    setGrantStatus grantId userId status now : AccessAct (Option AgentGrant)).mapError fun e =>
      if e.name = "InvalidGrantTransition" then connectionState e.description else e

def pauseConnection (userId : ℤ) (grantId : String) : AccessAct (Option AgentGrant) := setStatus userId grantId .paused

def resumeConnection (userId : ℤ) (grantId : String) : AccessAct (Option AgentGrant) := setStatus userId grantId .active

structure UpdateRequest where
  userId : ℤ
  grantId : String
  scopes : List String
  folderAccess : FolderAccess
  folderId : Option String
  historyScope : HistoryScope
  confirmDestructive : Bool := false

def editedScopes (req : UpdateRequest) (held : List AgentScope) : Except AccessError (List AgentScope) := do
  let requested := req.scopes.map strip
  let unknown := requested.filter fun value => value ≠ "" ∧ value ∉ knownRequestScopes
  ensure (unknown = []) (invalidScope unknown)
  let normalized := normalizeScopes requested
  ensure (normalized ≠ []) (connectionEdit <|
    "A connection must keep at least one permission. " ++
    "To remove access entirely, revoke the connection instead.")
  ensure (AgentScope.documentsDelete ∉ normalized ∨ .documentsDelete ∈ held ∨ req.confirmDestructive) (connectionEdit <|
    "Allowing the agent to permanently delete your files is irreversible. " ++
    "Re-send the change with confirm_destructive=true to allow it.")
  .ok normalized

def updateGrantBinding (req : UpdateRequest) (scopes : List AgentScope) : AccessAct (Option AgentGrant) := do
  match ← call (.selectOwned req.grantId req.userId) with
  | none => pure none
  | some loaded =>
    let row := { loaded with
      scopes := scopes.map (·.value)
      folderAccess := req.folderAccess
      folderId := req.folderId
      historyScope := req.historyScope }
    call (.updateGrant loaded row)
    pure (some row.toGrant)

/-- Edit the permissions of a connection in place. -/
def updateConnectedApp (req : UpdateRequest) : AccessAct (Option AgentGrant) := do
  match ← call (.getGrant req.grantId) with
  | none => pure none
  | some row =>
    let grant := row.toGrant
    if grant.userId ≠ req.userId then pure none
    else do
      Act.ofExcept (ensure (grant.status ≠ .revoked) (connectionState <|
        "A revoked connection cannot be edited. Reconnect the application to grant access again."))
      let normalized ← Act.ofExcept (editedScopes req grant.scopes)
      updateGrantBinding req normalized

end Management

end Transform.Access
