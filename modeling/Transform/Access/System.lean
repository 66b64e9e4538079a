import Transform.Lib.Watch
import Transform.Access.Service

/-!
# Access.System — calls of the authorization server over its tables

Any number of calls of any users and clients, interleaved statement by statement, each stopping anywhere, with any
statement raising, with or without its effect.  `accessMonitor` says what a call may ask: which rows it writes, out of
what it has read.
-/

namespace Transform.Access

open Lib Conversions

/-! ## The system -/

section System

/-- The calls. -/
inductive AccessParty
  | approve (req : ApproveRequest)
  | exchangeCode (req : CodeRequest)
  | exchangeRefresh (req : RefreshRequest)
  | loadAccessToken (token : String)
  | revokeToken (token : String)
  | revokeConnection (userId : ℤ) (grantId : String)
  | pause (userId : ℤ) (grantId : String)
  | resume (userId : ℤ) (grantId : String)
  | update (req : UpdateRequest)

/-- What can be redeemed, by its hash. -/
inductive Credential
  | code (codeHash : String)
  | refresh (tokenHash : String)
  deriving DecidableEq, Repr

namespace AccessParty

def answer (ctx : AccessContext) : AccessParty → AccessAct AccessAnswer
  | .approve req => do
    let answer ← Access.approve ctx req
    pure (.redirect answer)
  | .exchangeCode req => do
    let issued ← Access.exchangeCode ctx req
    pure (.tokens issued)
  | .exchangeRefresh req => do
    let issued ← Access.exchangeRefresh ctx req
    pure (.tokens issued)
  | .loadAccessToken token => do
    let found ← Access.loadAccessToken ctx token
    pure (.record found)
  | .revokeToken token => do
    Access.revokeToken ctx token
    pure .done
  | .revokeConnection userId grantId => do
    let found ← Access.revokeConnection userId grantId
    pure (.grant found)
  | .pause userId grantId => do
    let found ← pauseConnection userId grantId
    pure (.grant found)
  | .resume userId grantId => do
    let found ← resumeConnection userId grantId
    pure (.grant found)
  | .update req => do
    let found ← updateConnectedApp req
    pure (.grant found)

def program (ctx : AccessContext) (party : AccessParty) : Proc AccessSig Unit :=
  thread (do
    let answer ← party.answer ctx
    call (.respond answer) : AccessAct Unit)

/-- What a call presents to redeem. -/
def presents (ctx : AccessContext) : AccessParty → Option Credential
  | .exchangeCode req => some (.code (ctx.hashSecret req.code))
  | .exchangeRefresh req => some (.refresh (ctx.hashSecret req.refreshToken))
  | _ => none

def consents : AccessParty → Option (ℤ × String)
  | .approve req => some (req.userId, req.clientId)
  | _ => none

end AccessParty

/-- The tables, grants with their unique index.  Beside them, the last reading of the clock and that of each call, the
secret a call has drawn last, the tokens stored with their secrets, the grant a call has read last; for each grant how
often it was revoked, and for each code and token how often its grant had been when the consent it descends from was
given; the grant and that number of the consent or credential a call holds, and how often the grant it read had been
revoked; which call has redeemed a credential first, and the credentials that calls have returned tokens for. -/
structure AccessWorld where
  grants : String → Option GrantRow := fun _ => none
  index : ℤ → String → Option String := fun _ _ => none
  codes : String → Option CodeRow := fun _ => none
  tokens : String → Option TokenRow := fun _ => none
  clock : Instant := 0
  read : ℕ → Instant := fun _ => 0
  drawn : ℕ → String := fun _ => ""
  issued : List (String × TokenKind × String) := []
  seen : ℕ → Option GrantRow := fun _ => none
  epoch : String → ℕ := fun _ => 0
  codeEpoch : String → ℕ := fun _ => 0
  tokenEpoch : String → ℕ := fun _ => 0
  held : ℕ → Option (String × ℕ) := fun _ => none
  checked : ℕ → ℕ := fun _ => 0
  redeemer : Credential → Option ℕ := fun _ => none
  returned : List Credential := []

namespace AccessWorld

variable (ctx : AccessContext) (w : AccessWorld)

def selectGrant (userId : ℤ) (clientId : String) : Option GrantRow := (w.index userId clientId).bind w.grants

def selectOwned (grantId : String) (userId : ℤ) : Option GrantRow := (w.grants grantId).filter (·.userId = userId)

/-- The code that `takeCode` finds redeemable. -/
def redeemable (codeHash : String) (now : Instant) : Option CodeRow :=
  (w.codes codeHash).filter fun row => row.Redeemable now

/-- A new call: it holds nothing, and will read the clock no earlier than it was last read. -/
def enter (i : ℕ) : AccessWorld :=
  { w with
    read := Function.update w.read i w.clock
    held := Function.update w.held i none }

/-- The call comes to hold a consent, or a credential that descends from one. -/
def holding (i : ℕ) (grantId : String) (epoch : ℕ) : ℕ → Option (String × ℕ) :=
  Function.update w.held i (some (grantId, epoch))

def insertGrant (i : ℕ) (row : GrantRow) : AccessWorld :=
  { w with
    grants := Function.update w.grants row.id (some row)
    index := Function.update w.index row.userId (Function.update (w.index row.userId) row.clientId (some row.id))
    held := w.holding i row.id (w.epoch row.id) }

def Revokes (loaded row : GrantRow) : Prop := row.status = .revoked ∧ loaded.status ≠ .revoked

instance (loaded row : GrantRow) : Decidable (Revokes loaded row) := by
  unfold Revokes
  infer_instance

def updateGrant (i : ℕ) (party : AccessParty) (loaded row : GrantRow) : AccessWorld :=
  { w with
    grants := Function.update w.grants loaded.id ((w.grants loaded.id).map (loaded.flush row))
    epoch := if Revokes loaded row then Function.update w.epoch loaded.id (w.epoch loaded.id + 1) else w.epoch
    held := if party.consents.isSome then w.holding i loaded.id (w.epoch loaded.id) else w.held }

def touchGrant (grantId : String) (usedAt : Instant) : AccessWorld :=
  { w with grants := Function.update w.grants grantId <| (w.grants grantId).map fun row =>
      if row.lastUsedAt.all (· < usedAt - grantTouchInterval) then { row with lastUsedAt := some usedAt } else row }

/-- How often the grant had been revoked when the consent that the call holds, or descends from, was given. -/
def heldEpoch (i : ℕ) : ℕ := ((w.held i).map (·.2)).getD 0

def insertCode (i : ℕ) (row : CodeRow) : AccessWorld :=
  { w with
    codes := Function.update w.codes row.codeHash (some row)
    codeEpoch := Function.update w.codeEpoch row.codeHash (w.heldEpoch i) }

def takeCode (i : ℕ) (codeHash : String) (now : Instant) : AccessWorld :=
  let taken := w.redeemable codeHash now
  { w with
    codes := taken.elim w.codes fun row => Function.update w.codes codeHash (some { row with usedAt := some now })
    redeemer := taken.elim w.redeemer fun _ => Function.update w.redeemer (.code codeHash) (some i)
    held := taken.elim w.held fun row => w.holding i row.grantId (w.codeEpoch codeHash) }

def insertToken (i : ℕ) (row : TokenRow) : AccessWorld :=
  { w with
    tokens := Function.update w.tokens row.tokenHash (some row)
    tokenEpoch := Function.update w.tokenEpoch row.tokenHash (w.heldEpoch i)
    issued := (w.drawn i, row.kind, row.grantId) :: w.issued }

/-- The call has read a token that is neither revoked nor expired. -/
def readToken (i : ℕ) (row : TokenRow) : AccessWorld :=
  { w with
    held := if row.revokedAt = none ∧ w.read i < row.expiresAt then
      w.holding i row.grantId (w.tokenEpoch row.tokenHash) else w.held }

/-- A token after an UPDATE that revokes it. -/
def revoked (revokedAt : Instant) (row : TokenRow) : TokenRow :=
  if row.revokedAt = none then { row with revokedAt := some revokedAt } else row

def revokeToken (i : ℕ) (party : AccessParty) (tokenHash : String) (revokedAt : Instant) : AccessWorld :=
  { w with
    tokens := Function.update w.tokens tokenHash ((w.tokens tokenHash).map (revoked revokedAt))
    redeemer := if party.presents ctx = some (.refresh tokenHash) ∧ w.redeemer (.refresh tokenHash) = none then
      Function.update w.redeemer (.refresh tokenHash) (some i) else w.redeemer }

def revokeTokensForGrant (grantId : String) (revokedAt : Instant) : AccessWorld :=
  { w with tokens := fun tokenHash => (w.tokens tokenHash).map fun row =>
      if row.grantId = grantId then revoked revokedAt row else row }

/-- What an exchange does. -/
def apply (i : ℕ) (party : AccessParty) : Event AccessSig → AccessWorld
  | ⟨.now, .ok now, _, _⟩ => { w with clock := now, read := Function.update w.read i now }
  | ⟨.tokenUrlsafe, .ok secret, _, _⟩ => { w with drawn := Function.update w.drawn i secret }
  | ⟨.getGrant id, .ok (some row), _, _⟩ =>
    { w with
      seen := Function.update w.seen i (some row)
      checked := Function.update w.checked i (w.epoch id) }
  | ⟨.insertGrant row, _, true, _⟩ => w.insertGrant i row
  | ⟨.updateGrant loaded row, _, true, _⟩ => w.updateGrant i party loaded row
  | ⟨.touchGrant grantId usedAt, _, true, _⟩ => w.touchGrant grantId usedAt
  | ⟨.insertCode row, _, true, _⟩ => w.insertCode i row
  | ⟨.takeCode codeHash now, _, true, _⟩ => w.takeCode i codeHash now
  | ⟨.insertToken row, _, true, _⟩ => w.insertToken i row
  | ⟨.getToken _, .ok (some row), _, _⟩ => w.readToken i row
  | ⟨.revokeToken tokenHash revokedAt, _, true, _⟩ => w.revokeToken ctx i party tokenHash revokedAt
  | ⟨.revokeTokensForGrant grantId revokedAt, _, true, _⟩ => w.revokeTokensForGrant grantId revokedAt
  | ⟨.respond (.tokens _), _, _, _⟩ => { w with returned := (party.presents ctx).toList ++ w.returned }
  | _ => w

/-- Rows and clients are read as they stand, and a primary key or a unique index refuses without effect; the clock, the
ids and the random values are left open. -/
def Allowed : Event AccessSig → Prop
  | ⟨.getClient clientId, .ok client, _, _⟩ => client = ctx.clients clientId
  | ⟨.selectGrant userId clientId, .ok row, _, _⟩ => row = w.selectGrant userId clientId
  | ⟨.selectOwned grantId userId, .ok row, _, _⟩ => row = w.selectOwned grantId userId
  | ⟨.getGrant grantId, .ok row, _, _⟩ => row = w.grants grantId
  | ⟨.insertGrant row, _, took, _⟩ => took = true → w.grants row.id = none ∧ w.index row.userId row.clientId = none
  | ⟨.insertCode row, _, took, _⟩ => took = true → w.codes row.codeHash = none
  | ⟨.takeCode codeHash now, .ok row, _, _⟩ =>
    row = (w.redeemable codeHash now).map fun row => { row with usedAt := some now }
  | ⟨.insertToken row, _, took, _⟩ => took = true → w.tokens row.tokenHash = none
  | ⟨.getToken tokenHash, .ok row, _, _⟩ => row = w.tokens tokenHash
  | _ => True

abbrev Exchange := Event AccessSig

instance decidableAllowed (ev : Exchange) : Decidable (w.Allowed ctx ev) := by
  unfold Allowed
  split <;> infer_instance

end AccessWorld

/-- The calls over the tables. -/
def accessSystem (ctx : AccessContext) : Sys AccessSig where
  World := AccessWorld
  Tag := AccessParty
  spawn w i party p w' := w' = w.enter i ∧ p = party.program ctx
  Allowed w _ _ ev := w.Allowed ctx ev
  apply w i party ev := w.apply ctx i party ev

/-- Nothing runs and nothing is stored. -/
def AccessStart {ctx : AccessContext} (c : (accessSystem ctx).Config) : Prop :=
  (∀ i, c.threads i = none) ∧ ∃ clock : Instant, c.world = ({ clock := clock } : AccessWorld)

end System

/-! ## What a call asks -/

section Monitor

/-- What a call has read, drawn and done: the clock, a secret, the rows it selected and read, the code it took, the token
it read, the grant its consent is stored in, and whether it has revoked a token. -/
structure Grip where
  now : Option Instant := none
  drawn : Option String := none
  loaded : Option GrantRow := none
  grant : Option GrantRow := none
  code : Option CodeRow := none
  token : Option TokenRow := none
  consent : Option String := none
  rotated : Bool := false

/-- The call turns to another consent or credential: what it held is past. -/
def Grip.fresh (g : Grip) : Grip := { g with grant := none, code := none, token := none, consent := none }

def gripStep (party : AccessParty) (g : Grip) : Event AccessSig → Grip
  | ⟨.now, .ok now, _, _⟩ => { g.fresh with now := some now }
  | ⟨.tokenUrlsafe, .ok secret, _, _⟩ => { g with drawn := some secret }
  | ⟨.selectGrant _ _, .ok row, _, _⟩ => { g with loaded := row }
  | ⟨.selectOwned _ _, .ok row, _, _⟩ => { g with loaded := row }
  | ⟨.getGrant _, .ok row, _, _⟩ => { g with grant := row }
  | ⟨.insertGrant row, .ok _, _, _⟩ => { g.fresh with consent := some row.id }
  | ⟨.insertGrant _, .error _, _, _⟩ => g.fresh
  | ⟨.updateGrant loaded _, .ok _, _, _⟩ => if party.consents.isSome then { g.fresh with consent := some loaded.id } else g
  | ⟨.updateGrant _ _, .error _, _, _⟩ => g.fresh
  | ⟨.takeCode _ _, .ok row, _, _⟩ => { g.fresh with code := row }
  | ⟨.takeCode _ _, .error _, _, _⟩ => g.fresh
  | ⟨.getToken _, .ok row, _, _⟩ => { g.fresh with token := row }
  | ⟨.revokeToken _ _, .ok _, _, _⟩ => { g with rotated := true }
  -- the call has returned
  | ⟨.respond _, _, _, _⟩ => {}
  | _ => g

/-- The row carries the scopes that the consent resolves to. -/
def Consented (ctx : AccessContext) (req : ApproveRequest) (row : GrantRow) : Prop :=
  ∃ client scopes, ctx.clients req.clientId = some client ∧
    resolveScopes ctx client req.requestedScopes = .ok scopes ∧ row.scopes = scopes.map (·.value)

/-- The scopes an edit asks for. -/
def UpdateRequest.normalized (req : UpdateRequest) : List AgentScope := normalizeScopes (req.scopes.map strip)

/-- What an UPDATE of a grant changes: a consent activates it with the scopes resolved, an edit replaces its scopes, and
the others move its status. -/
def Writes (ctx : AccessContext) : AccessParty → GrantRow → GrantRow → Prop
  | .approve req, loaded, row => loaded.userId = req.userId ∧ loaded.clientId = req.clientId ∧ row.status = .active ∧
      Consented ctx req row
  | .revokeConnection _ _, loaded, row => loaded.status ≠ .revoked ∧ row.status = .revoked ∧ row.scopes = loaded.scopes
  | .pause _ _, loaded, row => loaded.status ≠ .revoked ∧ row.status = .paused ∧ row.scopes = loaded.scopes
  | .resume _ _, loaded, row => loaded.status ≠ .revoked ∧ row.status = .active ∧ row.scopes = loaded.scopes
  | .update req, loaded, row => row.status = loaded.status ∧ req.normalized ≠ [] ∧
      row.scopes = req.normalized.map (·.value)
  | _, _, _ => False

/-- The token was good when the call read it. -/
def Grip.Good (g : Grip) (token : TokenRow) : Prop :=
  g.token = some token ∧ ∃ now, g.now = some now ∧ token.revokedAt = none ∧ now < token.expiresAt

/-- The call has redeemed a credential, of the grant. -/
def Grip.Redeemed (g : Grip) : AccessParty → GrantRow → Prop
  | .exchangeCode _, grant => ∃ code, g.code = some code ∧ code.grantId = grant.id
  | .exchangeRefresh _, grant => g.rotated = true ∧ ∃ token, g.Good token ∧ token.grantId = grant.id
  | _, _ => False

/-- The scopes that the call may issue under the grant. -/
def Grip.Issues (ctx : AccessContext) (g : Grip) : AccessParty → GrantRow → List AgentScope → Prop
  | .exchangeCode _, grant, scopes => ∃ code, g.code = some code ∧ scopes ≠ [] ∧
      scopes = code.toCode.scopes.filter (· ∈ grant.toGrant.scopes)
  | .exchangeRefresh req, _, scopes => ∃ token, g.token = some token ∧ token.tokenHash = ctx.hashSecret req.refreshToken ∧
      narrowScopes token.toToken.scopes req.scopes = .ok scopes
  | _, _, _ => False

/-- The grant that the call read is active. -/
def Grip.Passed (g : Grip) (grant : GrantRow) : Prop := g.grant = some grant ∧ grant.toGrant.isActive = true

/-- A call reads and writes what it is about, out of what it has read. -/
def Permitted (ctx : AccessContext) (party : AccessParty) (g : Grip) : AccessOp → Prop
  | .selectGrant userId clientId => party.consents = some (userId, clientId)
  | .insertGrant row => ∃ req, party = .approve req ∧ row.userId = req.userId ∧ row.clientId = req.clientId ∧
      row.status = .active ∧ Consented ctx req row
  | .updateGrant loaded row => g.loaded = some loaded ∧ Writes ctx party loaded row
  | .insertCode row => party.consents.isSome = true ∧ g.consent = some row.grantId ∧ row.usedAt = none
  | .takeCode codeHash now => party.presents ctx = some (.code codeHash) ∧ g.now = some now
  | .insertToken row => row.revokedAt = none ∧ row.resource = some ctx.resource ∧
      (∃ secret, g.drawn = some secret ∧ row.tokenHash = ctx.hashSecret secret) ∧
      ∃ grant scopes, g.Passed grant ∧ g.Redeemed party grant ∧ g.Issues ctx party grant scopes ∧ row.grantId = grant.id ∧
        row.subject = grant.userId.repr ∧ row.scopes = scopes.map (·.value)
  | .revokeToken tokenHash _ => party.presents ctx = some (.refresh tokenHash) ∨ party.presents ctx = none
  | .respond (.tokens _) => ∃ grant, g.Passed grant ∧ g.Redeemed party grant
  | .respond (.record (some record)) => ∃ grant token, g.Passed grant ∧ g.Good token ∧ token.toToken = record ∧
      token.grantId = grant.id
  | _ => True

/-- What a call relies on: a row is the one asked for, and a consent is stored in the grant of its user and client. -/
def Relied (ctx : AccessContext) (g : Grip) : Event AccessSig → Prop
  | ⟨.getClient clientId, .ok client, _, _⟩ => client = ctx.clients clientId
  | ⟨.selectGrant userId clientId, .ok (some row), _, _⟩ => row.userId = userId ∧ row.clientId = clientId ∧
      ∀ id, g.consent = some id → row.id = id
  | ⟨.getGrant grantId, .ok (some row), _, _⟩ => row.id = grantId
  | ⟨.getToken tokenHash, .ok (some row), _, _⟩ => row.tokenHash = tokenHash
  | _ => True

def accessMonitor (ctx : AccessContext) (party : AccessParty) : Monitor AccessSig Grip where
  pre := Permitted ctx party
  rely := Relied ctx
  step := gripStep party

variable {ctx : AccessContext} {party : AccessParty} {g : Grip}

theorem requireClient_spec {clientId : String} :
    wpe (accessMonitor ctx party) (requireClient clientId) (fun client g' => g' = g ∧ ctx.clients clientId = some client)
      (fun _ _ => True) g := by
  unfold requireClient
  rw [wpe_bind]
  refine wpe_ask.2 ⟨trivial, fun found hrely => ?_, fun _ _ _ _ => trivial⟩
  rcases found with _ | client
  · trivial
  · have hclient : some client = ctx.clients clientId := hrely
    exact ⟨rfl, hclient.symm⟩

theorem requireActiveGrant_spec {grantId subject : String} :
    wpe (accessMonitor ctx party) (requireActiveGrant grantId subject)
      (fun grant g' => ∃ row, g' = { g with grant := some row } ∧ g'.Passed row ∧ row.toGrant = grant ∧ row.id = grantId)
      (fun _ _ => True) g := by
  unfold requireActiveGrant
  rw [wpe_bind]
  refine wpe_ask.2 ⟨trivial, fun found hrely => ?_, fun _ _ _ _ => trivial⟩
  rcases found with _ | row
  · trivial
  · have hid : row.id = grantId := hrely
    dsimp only
    rw [wpe_bind]
    refine wpe_ofExcept (fun _ _ => ?_) fun _ _ => trivial
    rw [wpe_bind]
    refine wpe_ofExcept (fun _ hactive => ?_) fun _ _ => trivial
    exact ⟨row, rfl, ⟨rfl, ensure_ok hactive⟩, rfl, hid⟩

/-! ### Consent -/

variable {req : ApproveRequest} {grant : AgentGrant} {scopes : List AgentScope} {client : OAuthClientRecord}

theorem upsertGrant_spec (huser : grant.userId = req.userId) (hclient : grant.clientId = req.clientId)
    (hfound : ctx.clients req.clientId = some client)
    (hscopes : resolveScopes ctx client req.requestedScopes = .ok grant.scopes) :
    wpe (accessMonitor ctx (.approve req)) (upsertGrant grant) (fun stored g' => g'.consent = some stored.id)
      (fun _ _ => True) g := by
  have hselect : (AccessParty.approve req).consents = some (grant.userId, grant.clientId) := by
    rw [huser, hclient]
    rfl
  unfold upsertGrant
  rw [wpe_bind]
  refine wpe_ask.2 ⟨hselect, fun found hfound' => ?_, fun _ _ _ _ => trivial⟩
  rcases found with _ | loaded
  · unfold insertConsent
    have hcreated : ∀ g' : Grip, wpe (accessMonitor ctx (.approve req)) (createdAtOf grant) (fun _ _ => True)
        (fun _ _ => True) g' := by
      intro g'
      unfold createdAtOf
      rcases grant.createdAt with _ | createdAt
      · exact wpe_ask.2 ⟨trivial, fun _ _ => trivial, fun _ _ _ _ => trivial⟩
      · trivial
    rw [wpe_bind]
    refine wpe_mono (hcreated _) (fun createdAt g' _ => ?_) fun _ _ _ => trivial
    rw [wpe_bind]
    refine wpe_ask.2 ⟨⟨req, rfl, huser, hclient, rfl, client, grant.scopes, hfound, hscopes, rfl⟩, fun _ _ => ?_,
      fun _ _ _ _ => trivial⟩
    rw [wpe_bind]
    refine wpe_ask.2 ⟨hselect, fun stored hrely => ?_, fun _ _ _ _ => trivial⟩
    rcases stored with _ | row
    · trivial
    · have hid : row.id = grant.id := hrely.2.2 grant.id rfl
      show some grant.id = some row.id
      rw [hid]
  · unfold renewConsent
    rw [wpe_bind]
    have huser' : loaded.userId = grant.userId := hfound'.1
    have hclient' : loaded.clientId = grant.clientId := hfound'.2.1
    refine wpe_ask.2 ⟨⟨rfl, huser'.trans huser, hclient'.trans hclient, rfl, client, grant.scopes, hfound, hscopes, rfl⟩,
      fun _ _ => ?_, fun _ _ _ _ => trivial⟩
    rw [wpe_bind]
    refine wpe_ask.2 ⟨hselect, fun stored _ => ?_, fun _ _ _ _ => trivial⟩
    rcases stored with _ | row
    · trivial
    · rfl

theorem approve_spec : wpe (accessMonitor ctx (.approve req)) (approve ctx req) (fun _ _ => True) (fun _ _ => True) g := by
  unfold approve
  rw [wpe_bind]
  refine wpe_mono requireClient_spec ?_ fun _ _ _ => trivial
  rintro client g' ⟨rfl, hclient⟩
  rw [wpe_bind]
  refine wpe_ofExcept (fun _ _ => ?_) fun _ _ => trivial
  rw [wpe_bind]
  refine wpe_ofExcept (fun scopes hscopes => ?_) fun _ _ => trivial
  rw [wpe_bind]
  refine wpe_ofExcept (fun resourceUrl _ => ?_) fun _ _ => trivial
  rw [wpe_bind]
  refine wpe_ofExcept (fun _ _ => ?_) fun _ _ => trivial
  rw [wpe_bind]
  refine wpe_ask.2 ⟨trivial, fun now _ => ?_, fun _ _ _ _ => trivial⟩
  rw [wpe_bind]
  refine wpe_ask.2 ⟨trivial, fun id _ => ?_, fun _ _ _ _ => trivial⟩
  rw [wpe_bind]
  refine wpe_mono (upsertGrant_spec rfl rfl hclient hscopes) (fun stored g'' hconsent => ?_) fun _ _ _ => trivial
  rw [wpe_bind]
  refine wpe_ask.2 ⟨trivial, fun code _ => ?_, fun _ _ _ _ => trivial⟩
  rw [wpe_bind]
  exact wpe_ask.2 ⟨⟨rfl, hconsent, rfl⟩, fun _ _ => trivial, fun _ _ _ _ => trivial⟩

/-! ### Exchanges -/

theorem issue_spec {row : GrantRow} {now : Instant} (hpassed : g.Passed row) (hredeemed : g.Redeemed party row)
    (hissues : g.Issues ctx party row scopes) :
    wpe (accessMonitor ctx party) (issue ctx row.toGrant scopes ctx.resource now)
      (fun _ g' => g'.Passed row ∧ g'.Redeemed party row) (fun _ _ => True) g := by
  -- what is known of the grant and of the credential stands while secrets are drawn
  have hstore : ∀ (g' : Grip) (secret : String) (kind : TokenKind) (expiresAt : Instant), g'.Passed row →
      g'.Redeemed party row → g'.Issues ctx party row scopes → g'.drawn = some secret →
      Permitted ctx party g' (.insertToken (tokenRow ctx row.toGrant scopes ctx.resource secret kind expiresAt)) :=
    fun g' secret kind expiresAt h1 h2 h3 h4 => ⟨rfl, rfl, ⟨secret, h4, rfl⟩, row, scopes, h1, h2, h3, rfl, rfl, rfl⟩
  unfold issue
  rw [wpe_bind]
  refine wpe_ask.2 ⟨trivial, fun accessToken _ => ?_, fun _ _ _ _ => trivial⟩
  rw [wpe_bind]
  refine wpe_ask.2 ⟨hstore _ _ _ _ hpassed hredeemed hissues rfl, fun _ _ => ?_, fun _ _ _ _ => trivial⟩
  unfold issueRefresh
  rw [wpe_bind, wpe_bind]
  refine wpe_ask.2 ⟨trivial, fun refreshToken _ => ?_, fun _ _ _ _ => trivial⟩
  rw [wpe_bind]
  exact wpe_ask.2 ⟨hstore _ _ _ _ hpassed hredeemed hissues rfl, fun _ _ => ⟨hpassed, hredeemed⟩,
    fun _ _ _ _ => trivial⟩

theorem validateResource_ok {resource : Option String} {presented : String}
    (h : validateResource ctx resource = .ok presented) : presented = ctx.resource := by
  unfold validateResource at h
  dsimp only at h
  split_ifs at h
  · cases h
    rfl
  · cases h
    rfl

theorem exchangeCode_spec {req : CodeRequest} :
    wpe (accessMonitor ctx (.exchangeCode req)) (exchangeCode ctx req)
      (fun _ g' => ∃ row, g'.Passed row ∧ g'.Redeemed (.exchangeCode req) row) (fun _ _ => True) g := by
  unfold exchangeCode
  rw [wpe_bind]
  refine wpe_ask.2 ⟨trivial, fun now _ => ?_, fun _ _ _ _ => trivial⟩
  rw [wpe_bind]
  refine wpe_ask.2 ⟨⟨rfl, rfl⟩, fun taken _ => ?_, fun _ _ _ _ => trivial⟩
  rcases taken with _ | code
  · trivial
  · dsimp only
    unfold redeemCode
    rw [wpe_bind]
    refine wpe_ofExcept (fun _ _ => ?_) fun _ _ => trivial
    rw [wpe_bind]
    refine wpe_ofExcept (fun _ _ => ?_) fun _ _ => trivial
    rw [wpe_bind]
    refine wpe_ofExcept (fun presented hpresented => ?_) fun _ _ => trivial
    obtain rfl := validateResource_ok hpresented
    rw [wpe_bind]
    refine wpe_ofExcept (fun _ _ => ?_) fun _ _ => trivial
    rw [wpe_bind]
    refine wpe_mono requireActiveGrant_spec ?_ fun _ _ _ => trivial
    rintro grant g' ⟨row, rfl, hpassed, rfl, hid⟩
    rw [wpe_bind]
    refine wpe_ofExcept (fun _ hscopes => ?_) fun _ _ => trivial
    have hnil : code.toCode.scopes.filter (· ∈ row.toGrant.scopes) ≠ [] := of_decide_eq_true (ensure_ok hscopes)
    refine wpe_mono (issue_spec hpassed ⟨code, rfl, hid.symm⟩ ⟨code, rfl, hnil, rfl⟩) (fun _ g'' h => ⟨row, h⟩)
      fun _ _ _ => trivial

theorem exchangeRefresh_spec {req : RefreshRequest} :
    wpe (accessMonitor ctx (.exchangeRefresh req)) (exchangeRefresh ctx req)
      (fun _ g' => ∃ row, g'.Passed row ∧ g'.Redeemed (.exchangeRefresh req) row) (fun _ _ => True) g := by
  unfold exchangeRefresh
  rw [wpe_bind]
  refine wpe_ask.2 ⟨trivial, fun now _ => ?_, fun _ _ _ _ => trivial⟩
  rw [wpe_bind]
  refine wpe_ask.2 ⟨trivial, fun found hrely => ?_, fun _ _ _ _ => trivial⟩
  rcases found with _ | token
  · trivial
  · have hhash : token.tokenHash = ctx.hashSecret req.refreshToken := hrely
    dsimp only
    unfold rotateToken
    rw [wpe_bind]
    refine wpe_ofExcept (fun _ _ => ?_) fun _ _ => trivial
    rw [wpe_bind]
    refine wpe_ofExcept (fun _ hgood => ?_) fun _ _ => trivial
    rw [wpe_bind]
    refine wpe_ofExcept (fun _ _ => ?_) fun _ _ => trivial
    rw [wpe_bind]
    refine wpe_ofExcept (fun presented hpresented => ?_) fun _ _ => trivial
    obtain rfl := validateResource_ok hpresented
    rw [wpe_bind]
    refine wpe_ofExcept (fun _ _ => ?_) fun _ _ => trivial
    rw [wpe_bind]
    refine wpe_mono requireActiveGrant_spec ?_ fun _ _ _ => trivial
    rintro grant g' ⟨row, rfl, hpassed, rfl, hid⟩
    rw [wpe_bind]
    refine wpe_ofExcept (fun narrowed hnarrowed => ?_) fun _ _ => trivial
    rw [wpe_bind]
    refine wpe_ask.2 ⟨.inl ?_, fun _ _ => ?_, fun _ _ _ _ => trivial⟩
    · show some (Credential.refresh (ctx.hashSecret req.refreshToken)) = some (.refresh token.tokenHash)
      rw [hhash]
    · have hlive : token.revokedAt = none ∧ now < token.expiresAt := of_decide_eq_true (ensure_ok hgood)
      refine wpe_mono (issue_spec hpassed ⟨rfl, token, ⟨rfl, now, rfl, hlive⟩, hid.symm⟩ ⟨token, rfl, hhash, hnarrowed⟩)
        (fun _ g'' h => ⟨row, h⟩) fun _ _ _ => trivial

/-! ### The check of an access token, and management -/

theorem loadAccessToken_spec {token : String} :
    wpe (accessMonitor ctx party) (loadAccessToken ctx token)
      (fun found g' => ∀ record, found = some record → ∃ row held, g'.Passed row ∧ g'.Good held ∧ held.toToken = record ∧
        held.grantId = row.id) (fun _ _ => True) g := by
  unfold loadAccessToken
  rw [wpe_bind]
  refine wpe_ask.2 ⟨trivial, fun now _ => ?_, fun _ _ _ _ => trivial⟩
  rw [wpe_bind]
  refine wpe_ask.2 ⟨trivial, fun found hrely => ?_, fun _ _ _ _ => trivial⟩
  rcases found with _ | held
  · rintro record h
    cases h
  · dsimp only
    by_cases husable : held.toToken.Usable ctx now
    · rw [if_pos husable]
      unfold checkGrant
      rw [wpe_bind]
      refine wpe_ask.2 ⟨trivial, fun found hrow => ?_, fun _ _ _ _ => trivial⟩
      rcases found with _ | row
      · rintro record h
        cases h
      · have hid : row.id = held.grantId := hrow
        dsimp only
        split_ifs with hrefused
        · rintro record h
          cases h
        · have hactive : row.toGrant.isActive = true := by
            by_contra hinactive
            exact hrefused (.inl (by simpa using hinactive))
          have hgood : ∀ g' : Grip, g'.token = some held → g'.now = some now → g'.Good held := fun g' h1 h2 =>
            ⟨h1, now, h2, husable.2.1, husable.2.2.1⟩
          rw [wpe_bind]
          unfold touchStale
          split
          · refine wpe_ask.2 ⟨trivial, fun _ _ => ?_, fun _ _ _ _ => trivial⟩
            rintro record h
            cases h
            exact ⟨row, held, ⟨rfl, hactive⟩, hgood _ rfl rfl, rfl, hid.symm⟩
          · split_ifs
            · refine wpe_ask.2 ⟨trivial, fun _ _ => ?_, fun _ _ _ _ => trivial⟩
              rintro record h
              cases h
              exact ⟨row, held, ⟨rfl, hactive⟩, hgood _ rfl rfl, rfl, hid.symm⟩
            · rintro record h
              cases h
              exact ⟨row, held, ⟨rfl, hactive⟩, hgood _ rfl rfl, rfl, hid.symm⟩
    · rw [if_neg husable]
      rintro record h
      cases h

theorem revokeToken_spec {token : String} (hp : party.presents ctx = none) :
    wpe (accessMonitor ctx party) (revokeToken ctx token) (fun _ _ => True) (fun _ _ => True) g := by
  unfold revokeToken
  rw [wpe_bind]
  refine wpe_ask.2 ⟨trivial, fun now _ => ?_, fun _ _ _ _ => trivial⟩
  exact wpe_ask.2 ⟨.inr hp, fun _ _ => trivial, fun _ _ _ _ => trivial⟩

theorem revokeConnection_spec {userId : ℤ} {grantId : String} :
    wpe (accessMonitor ctx (.revokeConnection userId grantId)) (revokeConnection userId grantId) (fun _ _ => True)
      (fun _ _ => True) g := by
  have hrevoke : ∀ g' : Grip, wpe (accessMonitor ctx (.revokeConnection userId grantId)) (revokeGrant grantId userId)
      (fun _ _ => True) (fun _ _ => True) g' := by
    intro g'
    unfold revokeGrant
    rw [wpe_bind]
    refine wpe_ask.2 ⟨trivial, fun found _ => ?_, fun _ _ _ _ => trivial⟩
    rcases found with _ | loaded
    · trivial
    · dsimp only
      unfold markRevoked
      split_ifs with hrevoked
      · trivial
      · rw [wpe_bind]
        refine wpe_ask.2 ⟨trivial, fun revokedAt _ => ?_, fun _ _ _ _ => trivial⟩
        rw [wpe_bind]
        exact wpe_ask.2 ⟨⟨rfl, hrevoked, rfl, rfl⟩, fun _ _ => trivial, fun _ _ _ _ => trivial⟩
  unfold revokeConnection
  rw [wpe_bind]
  refine wpe_ask.2 ⟨trivial, fun now _ => ?_, fun _ _ _ _ => trivial⟩
  rw [wpe_bind]
  refine wpe_mono (hrevoke _) (fun found g' _ => ?_) fun _ _ _ => trivial
  rcases found with _ | grant
  · trivial
  · dsimp only
    rw [wpe_bind]
    exact wpe_ask.2 ⟨trivial, fun _ _ => trivial, fun _ _ _ _ => trivial⟩

theorem setStatus_spec {userId : ℤ} {grantId : String} {status : AgentGrantStatus}
    (hwrites : ∀ loaded row : GrantRow, loaded.status ≠ .revoked → row.status = status → row.scopes = loaded.scopes →
      Writes ctx party loaded row) :
    wpe (accessMonitor ctx party) (setStatus userId grantId status) (fun _ _ => True) (fun _ _ => True) g := by
  unfold setStatus
  rw [wpe_mapError, wpe_bind]
  refine wpe_ask.2 ⟨trivial, fun now _ => ?_, fun _ _ _ _ => trivial⟩
  unfold setGrantStatus
  rw [wpe_bind]
  refine wpe_ask.2 ⟨trivial, fun found _ => ?_, fun _ _ _ _ => trivial⟩
  rcases found with _ | loaded
  · trivial
  · dsimp only
    unfold moveStatus
    by_cases hrevoked : loaded.status = .revoked
    · rw [if_pos hrevoked]
      trivial
    · rw [if_neg hrevoked]
      by_cases hsame : loaded.status = status
      · rw [if_pos hsame]
        trivial
      · rw [if_neg hsame, wpe_bind]
        exact wpe_ask.2 ⟨⟨rfl, hwrites _ _ hrevoked rfl rfl⟩, fun _ _ => trivial, fun _ _ _ _ => trivial⟩

theorem editedScopes_ok {req : UpdateRequest} {held normalized : List AgentScope}
    (h : editedScopes req held = .ok normalized) : normalized = req.normalized ∧ normalized ≠ [] := by
  unfold editedScopes at h
  obtain ⟨_, -, h⟩ := bind_ok h
  obtain ⟨_, hnil, h⟩ := bind_ok h
  obtain ⟨_, -, h⟩ := bind_ok h
  cases h
  exact ⟨rfl, by simpa using ensure_ok hnil⟩

theorem updateConnectedApp_spec {req : UpdateRequest} :
    wpe (accessMonitor ctx (.update req)) (updateConnectedApp req) (fun _ _ => True) (fun _ _ => True) g := by
  unfold updateConnectedApp
  rw [wpe_bind]
  refine wpe_ask.2 ⟨trivial, fun found _ => ?_, fun _ _ _ _ => trivial⟩
  rcases found with _ | row
  · trivial
  · dsimp only
    split_ifs
    · trivial
    · rw [wpe_bind]
      refine wpe_ofExcept (fun _ _ => ?_) fun _ _ => trivial
      rw [wpe_bind]
      refine wpe_ofExcept (fun normalized hedited => ?_) fun _ _ => trivial
      obtain ⟨rfl, hnil⟩ := editedScopes_ok hedited
      unfold updateGrantBinding
      rw [wpe_bind]
      refine wpe_ask.2 ⟨trivial, fun owned _ => ?_, fun _ _ _ _ => trivial⟩
      rcases owned with _ | loaded
      · trivial
      · dsimp only
        rw [wpe_bind]
        exact wpe_ask.2 ⟨⟨rfl, rfl, hnil, rfl⟩, fun _ _ => trivial, fun _ _ _ _ => trivial⟩

/-- **What a call asks**: whatever the tables answer, every statement is one that the call may ask. -/
theorem program_permitted (party : AccessParty) :
    wp (accessMonitor ctx party) (party.program ctx) (fun _ _ => True) g := by
  have hrespond : ∀ (p : AccessAct AccessAnswer), wpe (accessMonitor ctx party) p
      (fun answer g' => Permitted ctx party g' (.respond answer)) (fun _ _ => True) g →
      wp (accessMonitor ctx party) (thread (p >>= fun answer => call (.respond answer))) (fun _ _ => True) g := by
    intro p hp
    refine wp_thread_of_wpe ?_
    rw [wpe_bind]
    refine wpe_mono hp (fun answer g' h => ?_) fun _ _ _ => trivial
    exact wpe_ask.2 ⟨h, fun _ _ => trivial, fun _ _ _ _ => trivial⟩
  refine hrespond _ ?_
  cases party with
  | approve req =>
    rw [AccessParty.answer, wpe_bind]
    exact wpe_mono approve_spec (fun _ _ _ => trivial) fun _ _ _ => trivial
  | exchangeCode req =>
    rw [AccessParty.answer, wpe_bind]
    exact wpe_mono exchangeCode_spec (fun _ _ h => h) fun _ _ _ => trivial
  | exchangeRefresh req =>
    rw [AccessParty.answer, wpe_bind]
    exact wpe_mono exchangeRefresh_spec (fun _ _ h => h) fun _ _ _ => trivial
  | loadAccessToken token =>
    rw [AccessParty.answer, wpe_bind]
    refine wpe_mono loadAccessToken_spec (fun found g' h => ?_) fun _ _ _ => trivial
    rcases found with _ | record
    · trivial
    · exact h record rfl
  | revokeToken token =>
    rw [AccessParty.answer, wpe_bind]
    exact wpe_mono (revokeToken_spec rfl) (fun _ _ _ => trivial) fun _ _ _ => trivial
  | revokeConnection userId grantId =>
    rw [AccessParty.answer, wpe_bind]
    exact wpe_mono revokeConnection_spec (fun _ _ _ => trivial) fun _ _ _ => trivial
  | pause userId grantId =>
    rw [AccessParty.answer, wpe_bind]
    exact wpe_mono (setStatus_spec fun _ _ h1 h2 h3 => ⟨h1, h2, h3⟩) (fun _ _ _ => trivial) fun _ _ _ => trivial
  | resume userId grantId =>
    rw [AccessParty.answer, wpe_bind]
    exact wpe_mono (setStatus_spec fun _ _ h1 h2 h3 => ⟨h1, h2, h3⟩) (fun _ _ _ => trivial) fun _ _ _ => trivial
  | update req =>
    rw [AccessParty.answer, wpe_bind]
    exact wpe_mono updateConnectedApp_spec (fun _ _ _ => trivial) fun _ _ _ => trivial

end Monitor

end Transform.Access
