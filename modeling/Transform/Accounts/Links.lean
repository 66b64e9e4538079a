import Transform.Accounts.User
import Transform.Lib.Watch

/-!
# Accounts.Links — links that are sent by email

Registering, resending and asking for a reset issue a link; opening it verifies the address or sets a password.  Taking a
link is one conditional UPDATE.  A link that has expired, or is of an address that is verified, is cleared by the commit of
the row that was read.
-/

namespace Transform.Accounts

open Lib Conversions

inductive LinkKind
  | verification
  | reset
  deriving DecidableEq, Repr

def UserRow.link (row : UserRow) : LinkKind → LinkColumns
  | .verification => row.verification
  | .reset => row.reset

def UserRow.setLink (row : UserRow) (columns : LinkColumns) : LinkKind → UserRow
  | .verification => { row with verification := columns }
  | .reset => { row with reset := columns }

/-- What the hash, the settings and `lower` are.  Lifetimes and cooldowns are in microseconds. -/
structure LinkContext where
  hashToken : String → String
  lower : String → String
  ttl : LinkKind → Instant
  cooldown : LinkKind → Instant

inductive LinkOp
  | now
  | existing (username email : String)
  | insertUser (row : UserRow)
  | findByEmail (email : String)
  | findByToken (kind : LinkKind) (tokenHash : String)
  | tokenUrlsafe
  | hashPassword (password : String)
  | commit (kind : LinkKind) (loaded assigned : LinkColumns)
  | send (kind : LinkKind) (recipient raw : String)
  | consume (kind : LinkKind) (tokenHash : String) (now : Instant) (newPassword : Option String)

abbrev LinkOp.Ans : LinkOp → Type
  | .now => Instant
  | .existing _ _ => Bool
  | .insertUser _ => Unit
  | .findByEmail _ => Option UserRow
  | .findByToken _ _ => Option UserRow
  | .tokenUrlsafe => String
  | .hashPassword _ => String
  | .commit _ _ _ => Unit
  | .send _ _ _ => Unit
  | .consume _ _ _ _ => Bool

abbrev LinkSig : Sig := ⟨LinkOp, LinkOp.Ans, AccountError⟩

abbrev LinkM (α : Type) : Type := Act LinkSig AccountError α

def onLinks (op : LinkOp) : LinkM op.Ans := ask (S := LinkSig) op

/-! ## Issuing -/

section Issuing

structure IssuedToken where
  raw : String
  hashed : String
  expiresAt : Instant

/-- `issue_token`. -/
def issueToken (ctx : LinkContext) (ttl : Instant) : LinkM IssuedToken := do
  let reference ← onLinks .now
  let raw ← onLinks .tokenUrlsafe
  return ⟨raw, ctx.hashToken raw, reference + ttl⟩

def issueVerificationToken (ctx : LinkContext) : LinkM IssuedToken := issueToken ctx (ctx.ttl .verification)

def issuePasswordResetToken (ctx : LinkContext) : LinkM IssuedToken :=
  if ctx.ttl .reset ≤ 0 then .throw (.value "issue_password_reset_token requires a positive ttl_minutes")
  else issueToken ctx (ctx.ttl .reset)

/-- `cooldown_elapsed`. -/
def cooldownElapsed (sentAt : Option Instant) (cooldown : Instant) : LinkM Bool :=
  match sentAt with
  | none => pure true
  | some previous =>
    if cooldown ≤ 0 then pure true else do
      let now ← onLinks .now
      return cooldownOver previous cooldown now

/-- `not (respect_cooldown and not cooldown_elapsed(...))`. -/
def maySend (respectCooldown : Bool) (sentAt : Option Instant) (cooldown : Instant) : LinkM Bool :=
  if respectCooldown then cooldownElapsed sentAt cooldown else pure true

/-- Issue a link, store its hash, and send it; whether the message was handed over. -/
def issueAndSend (ctx : LinkContext) (kind : LinkKind) (issue : LinkM IssuedToken) (user : UserRow)
    (respectCooldown : Bool) : LinkM Bool := do
  let allowed ← maySend respectCooldown (user.link kind).sentAt (ctx.cooldown kind)
  if !allowed then return false
  let token ← issue
  let stored : LinkColumns := { user.link kind with tokenHash := some token.hashed, expiresAt := some token.expiresAt }
  onLinks (.commit kind (user.link kind) stored)
  let sent ← (onLinks (.send kind user.email token.raw) >>= fun _ => pure true).tryCatch fun _ => pure false
  if !sent then return false
  let now ← onLinks .now
  onLinks (.commit kind stored { stored with sentAt := some now })
  return true

def issueAndSendVerificationEmail (ctx : LinkContext) (user : UserRow) (respectCooldown : Bool) : LinkM Bool :=
  issueAndSend ctx .verification (issueVerificationToken ctx) user respectCooldown

def issueAndSendPasswordResetEmail (ctx : LinkContext) (user : UserRow) (respectCooldown : Bool) : LinkM Bool :=
  issueAndSend ctx .reset (issuePasswordResetToken ctx) user respectCooldown

def usernameTaken : AccountError := .http 409 "Username or email already exists"

/-- `register_user`. -/
def registerUser (ctx : LinkContext) (userId : ℤ) (username email password : String) : LinkM UserRow := do
  if ← onLinks (.existing username email) then .throw usernameTaken else
    let hashedPassword ← onLinks (.hashPassword password)
    let user : UserRow := { id := userId, username, email, hashedPassword }
    (onLinks (.insertUser user)).tryCatch fun e => .throw (if e = .integrity then usernameTaken else e)
    let _ ← issueAndSendVerificationEmail ctx user false
    return user

def resendAcceptedMessage : String :=
  "If an account with that email address needs verification, a new link is on its way."

def forgotPasswordAcceptedMessage : String :=
  "If an account with that email address exists, we've sent instructions for resetting your password."

/-- `resend_verification_email`. -/
def resendVerificationEmail (ctx : LinkContext) (email : String) : LinkM String := do
  match ← onLinks (.findByEmail (ctx.lower (strip email))) with
  | some user =>
    if user.isActive && !user.emailVerified then
      let _ ← issueAndSendVerificationEmail ctx user true
      return resendAcceptedMessage
    else return resendAcceptedMessage
  | none => return resendAcceptedMessage

def forgotPassword (ctx : LinkContext) (email : String) : LinkM String := do
  match ← onLinks (.findByEmail (ctx.lower (strip email))) with
  | some user =>
    if user.isActive then
      let _ ← issueAndSendPasswordResetEmail ctx user true
      return forgotPasswordAcceptedMessage
    else return forgotPasswordAcceptedMessage
  | none => return forgotPasswordAcceptedMessage

end Issuing

/-! ## Consuming -/

section Consuming

structure LinkResponse where
  alreadyVerified : Bool := false
  username : String
  message : String

def invalidToken : LinkKind → AccountError
  | .verification =>
    .http 400 "This verification link is invalid or has expired. Request a new one and try again."
  | .reset => .http 400 "This password reset link is invalid or has expired. Request a new one and try again."

/-- Clear the columns of the row that was read. -/
def clearLink (kind : LinkKind) (user : UserRow) : LinkM Unit :=
  onLinks (.commit kind (user.link kind) { user.link kind with tokenHash := none, expiresAt := none })

def verifyEmail (ctx : LinkContext) (token : String) : LinkM LinkResponse := do
  let tokenHash := ctx.hashToken token
  let now ← onLinks .now
  match ← onLinks (.findByToken .verification tokenHash) with
  | none => .throw (invalidToken .verification)
  | some user =>
    if user.emailVerified then
      clearLink .verification user
      return ⟨true, user.username, "Your email address is already verified. You can sign in."⟩
    else if isExpired user.verification.expiresAt now then
      clearLink .verification user
      .throw (invalidToken .verification)
    else if ← onLinks (.consume .verification tokenHash now none) then
      return ⟨false, user.username, "Your email address is verified. You can now sign in."⟩
    else .throw (invalidToken .verification)

def resetPassword (ctx : LinkContext) (token newPassword : String) : LinkM LinkResponse := do
  let tokenHash := ctx.hashToken token
  let now ← onLinks .now
  match ← onLinks (.findByToken .reset tokenHash) with
  | none => .throw (invalidToken .reset)
  | some user =>
    if isExpired user.reset.expiresAt now then
      clearLink .reset user
      .throw (invalidToken .reset)
    else
      let newPasswordHash ← onLinks (.hashPassword newPassword)
      if ← onLinks (.consume .reset tokenHash now (some newPasswordHash)) then
        return ⟨false, user.username, "Your password has been updated. Sign in with your new password."⟩
      else .throw (invalidToken .reset)

/-- What a taken link sets. -/
def UserRow.consumed (row : UserRow) (now : Instant) (newPassword : Option String) : LinkKind → UserRow
  | .verification =>
    { row with
      emailVerified := true
      emailVerifiedAt := some now
      verification := { row.verification with tokenHash := none, expiresAt := none } }
  | .reset =>
    { row with
      hashedPassword := newPassword.getD row.hashedPassword
      reset := { row.reset with tokenHash := none, expiresAt := none }
      emailVerified := true
      emailVerifiedAt := row.emailVerifiedAt.or (some now) }

end Consuming

/-! ## The account and its requests -/

section System

inductive LinkRequest
  | register (userId : ℤ) (username email password : String)
  | resend (email : String)
  | forgot (email : String)
  | verify (token : String)
  | resetPassword (token newPassword : String)

def LinkRequest.program (ctx : LinkContext) : LinkRequest → Proc LinkSig Unit
  | .register userId username email password => thread (registerUser ctx userId username email password)
  | .resend email => thread (resendVerificationEmail ctx email)
  | .forgot email => thread (forgotPassword ctx email)
  | .verify token => thread (verifyEmail ctx token)
  | .resetPassword token newPassword => thread (Accounts.resetPassword ctx token newPassword)

/-- A link, as it was stored. -/
structure IssuedLink where
  kind : LinkKind
  tokenHash : String
  expiresAt : Option Instant
  deriving DecidableEq, Repr

/-- The account and the clock.  Beside them, the hashes of the tokens drawn with the request that drew each, the links
stored with the newest first, those that took effect and those that were opened after the address was verified, and the
row that each request read by its token. -/
structure LinkWorld where
  user : Option UserRow := none
  clock : Instant := 0
  minted : List (String × ℕ) := []
  issued : List IssuedLink := []
  effects : List (LinkKind × String) := []
  spent : List (LinkKind × String) := []
  seen : ℕ → Option UserRow := fun _ => none

inductive LinkTag
  | request (request : LinkRequest)
  | tick (clock : Instant)

namespace LinkWorld

variable (ctx : LinkContext) (w : LinkWorld)

def latest (kind : LinkKind) : Option IssuedLink := w.issued.find? (·.kind = kind)

/-- The row that a conditional UPDATE finds. -/
def takes (kind : LinkKind) (tokenHash : String) (now : Instant) : Option UserRow :=
  w.user.filter fun row => (row.link kind).tokenHash = some tokenHash ∧ ∃ expires ∈ (row.link kind).expiresAt, now < expires

/-- The commit of a row: a new hash is a link issued, and a cleared one is spent if the address was verified. -/
def commit (i : ℕ) (kind : LinkKind) (loaded assigned : LinkColumns) : LinkWorld where
  user := w.user.map fun row => row.setLink (loaded.flush assigned (row.link kind)) kind
  clock := w.clock
  minted := w.minted
  issued := if assigned.tokenHash = loaded.tokenHash then w.issued else
    (assigned.tokenHash.map fun tokenHash => ⟨kind, tokenHash, assigned.expiresAt⟩).toList ++ w.issued
  effects := w.effects
  spent := if assigned.tokenHash = none ∧ kind = .verification ∧ ∃ row ∈ w.seen i, row.emailVerified = true then
    (loaded.tokenHash.map fun tokenHash => (kind, tokenHash)).toList ++ w.spent else w.spent
  seen := w.seen

def apply (i : ℕ) : Event LinkSig → LinkWorld
  | ⟨.insertUser row, _, true, _⟩ => { w with user := some row }
  | ⟨.findByToken _ _, .ok row, _, _⟩ => { w with seen := Function.update w.seen i row }
  | ⟨.tokenUrlsafe, .ok raw, _, _⟩ => { w with minted := (ctx.hashToken raw, i) :: w.minted }
  | ⟨.commit kind loaded assigned, _, true, _⟩ => w.commit i kind loaded assigned
  | ⟨.consume kind tokenHash now newPassword, _, true, _⟩ =>
    match w.takes kind tokenHash now with
    | some row => { w with
        user := some (row.consumed now newPassword kind)
        effects := (kind, tokenHash) :: w.effects }
    | none => w
  | _ => w

/-- A token drawn has a hash that no other has. -/
def Allowed : Event LinkSig → Prop
  | ⟨.now, .ok now, _, _⟩ => now = w.clock
  | ⟨.existing username email, .ok found, _, _⟩ =>
    found = true ↔ ∃ row ∈ w.user, row.username = username ∨ row.email = email
  | ⟨.insertUser _, _, took, _⟩ => took = true → w.user = none
  | ⟨.findByEmail email, .ok row, _, _⟩ => row = w.user.filter fun row => ctx.lower row.email = email
  | ⟨.findByToken kind tokenHash, .ok row, _, _⟩ => row = w.user.filter fun row => (row.link kind).tokenHash = some tokenHash
  | ⟨.tokenUrlsafe, .ok raw, _, _⟩ => ctx.hashToken raw ∉ w.minted.map (·.1)
  | ⟨.consume kind tokenHash now _, .ok found, _, _⟩ => found = (w.takes kind tokenHash now).isSome
  | _ => True

end LinkWorld

/-- Requests on one account, and time that passes. -/
def linkSystem (ctx : LinkContext) : Sys LinkSig where
  World := LinkWorld
  Tag := LinkTag
  spawn w i tag p w' := match tag with
    | .request request => p = request.program ctx ∧ w' = { w with seen := Function.update w.seen i none }
    | .tick clock => p = .ret () ∧ w.clock ≤ clock ∧ w' = { w with clock := clock }
  Allowed w _ _ ev := w.Allowed ctx ev
  apply w i _ ev := w.apply ctx i ev

end System

end Transform.Accounts
