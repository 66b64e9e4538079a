import Transform.Accounts.User
import Transform.Lib.Watch

/-!
# Accounts.Phone — the phone number and its code

A request works on the row that was loaded when it was authenticated.  Issuing a code and removing the number assign to
that row and commit it; a wrong guess is counted, and a right one taken, by an UPDATE of its own.
-/

namespace Transform.Accounts

open Lib Conversions

/-- What the keyed digest, the digits of `\d` and the settings are.  Times are in microseconds. -/
structure PhoneContext where
  hashCode : ℤ → String → String
  decimal : Char → Bool
  ttl : Instant
  cooldown : Instant
  maxAttempts : ℕ

inductive PhoneOp
  | currentUser
  | now
  | conflict (phoneNumber : String) (userId : ℤ)
  | generateCode
  | commit (loaded assigned : PhoneColumns)
  | send (phoneNumber code : String)
  | compareDigest (candidate codeHash : String)
  | countGuess
  | consume (codeHash : String) (now : Instant)

abbrev PhoneOp.Ans : PhoneOp → Type
  | .currentUser => UserRow
  | .now => Instant
  | .conflict _ _ => Option Bool
  | .generateCode => String
  | .commit _ _ => Unit
  | .send _ _ => Unit
  | .compareDigest _ _ => Bool
  | .countGuess => Unit
  | .consume _ _ => Bool

abbrev PhoneSig : Sig := ⟨PhoneOp, PhoneOp.Ans, AccountError⟩

abbrev PhoneM (α : Type) : Type := Act PhoneSig AccountError α

def onPhone (op : PhoneOp) : PhoneM op.Ans := ask (S := PhoneSig) op

/-! ## Numbers, codes and their status -/

section Codes

def isSeparator (c : Char) : Bool := c ∈ [' ', '-', '(', ')', '.', '\t']

/-- `_E164_RE`, whose `$` also stands before a last newline. -/
def matchesE164 (decimal : Char → Bool) : List Char → Bool
  | '+' :: first :: rest =>
    let digits := if rest.getLast? = some '\n' then rest.dropLast else rest
    first.isDigit && first ≠ '0' && digits.all decimal && 7 ≤ digits.length && digits.length ≤ 14
  | _ => false

def normalizePhoneNumber (decimal : Char → Bool) (raw : String) : Except String String :=
  let cleaned := (strip raw).toList.filter fun c => !isSeparator c
  let cleaned := match cleaned with
    | '0' :: '0' :: rest => '+' :: rest
    | _ => cleaned
  if matchesE164 decimal cleaned then .ok (String.ofList cleaned)
  else .error "Enter a phone number in international format, e.g. +14155552671."

/-- `cooldown_elapsed`. -/
def phoneCooldownElapsed (sentAt : Option Instant) (cooldown now : Instant) : Bool :=
  match sentAt with
  | some previous => cooldown ≤ 0 || cooldownOver previous cooldown now
  | none => true

def secondsUntilResendAllowed (sentAt : Option Instant) (cooldown now : Instant) : Option ℤ :=
  sentAt.bind fun previous =>
    if phoneCooldownElapsed sentAt cooldown now then none else some (max 0 (Int.tdiv (previous + cooldown - now) 1000000))

def attemptsExhausted (attempts maxAttempts : ℕ) : Bool := maxAttempts ≤ attempts

structure PhoneStatus where
  phoneNumber : Option String
  phoneVerified : Bool
  expiresInSeconds : Option ℤ
  resendAvailableInSeconds : Option ℤ

/-- `_phone_status` at a time that was read. -/
def phoneStatus (ctx : PhoneContext) (user : PhoneColumns) (sent : Bool) (now : Instant) : PhoneStatus where
  phoneNumber := user.phoneNumber
  phoneVerified := user.phoneVerified
  expiresInSeconds :=
    if sent then some (Int.tdiv ctx.ttl 1000000)
    else (user.expiresAt.filter fun _ => !isExpired user.expiresAt now).map fun expires =>
      max 0 (Int.tdiv (expires - now) 1000000)
  resendAvailableInSeconds := secondsUntilResendAllowed user.sentAt ctx.cooldown now

structure IssuedPhoneCode where
  code : String
  codeHash : String
  sentAt : Instant
  expiresAt : Instant

def issuePhoneCode (ctx : PhoneContext) (userId : ℤ) : PhoneM IssuedPhoneCode := do
  let reference ← onPhone .now
  let code ← onPhone .generateCode
  return ⟨code, ctx.hashCode userId code, reference, reference + ctx.ttl⟩

/-- A missing digest matches nothing. -/
def codeMatches (ctx : PhoneContext) (userId : ℤ) (code : String) : Option String → PhoneM Bool
  | none => pure false
  | some codeHash =>
    if codeHash = "" then pure false else onPhone (.compareDigest (ctx.hashCode userId code) codeHash)

end Codes

/-! ## The requests -/

section Requests

def invalidPhoneNumber (message : String) : AccountError := .coded 400 "INVALID_PHONE_NUMBER" message

def phoneInUse (verified : Bool) : AccountError :=
  .coded 409 "PHONE_IN_USE" (if verified then "That phone number is already verified on another account."
    else "That phone number is already linked to another account.")

def smsDeliveryFailed : AccountError :=
  .coded 503 "SMS_DELIVERY_FAILED" "We could not send the verification code right now. Try again in a moment."

def phoneCodeExpired : AccountError := .coded 400 "PHONE_CODE_EXPIRED" "That code has expired. Request a new one."

def phoneCodeAttemptsExceeded : AccountError :=
  .coded 429 "PHONE_CODE_ATTEMPTS_EXCEEDED" "Too many incorrect codes. Request a new one."

def phoneCodeInvalid : AccountError :=
  .coded 400 "PHONE_CODE_INVALID" "That code is not correct. Check the message and try again."

/-- What a new code assigns to the row. -/
def PhoneColumns.withCode (columns : PhoneColumns) (phoneNumber : String) (issued : IssuedPhoneCode) : PhoneColumns :=
  { columns with
    phoneNumber := some phoneNumber
    phoneVerified := false
    phoneVerifiedAt := none
    codeHash := some issued.codeHash
    expiresAt := some issued.expiresAt
    attempts := 0 }

/-- `_send_phone_code`: the columns that the row has afterwards. -/
def sendPhoneCode (ctx : PhoneContext) (user : UserRow) (phoneNumber : String) : PhoneM PhoneColumns := do
  let issued ← issuePhoneCode ctx user.id
  let stored := user.phone.withCode phoneNumber issued
  onPhone (.commit user.phone stored)
  onPhone (.send phoneNumber issued.code)
  let sent : PhoneColumns := { stored with sentAt := some issued.sentAt }
  onPhone (.commit stored sent)
  return sent

def sendAndReport (ctx : PhoneContext) (user : UserRow) (phoneNumber : String) (failure : AccountError → AccountError) :
    PhoneM PhoneStatus := do
  let sent ← (sendPhoneCode ctx user phoneNumber).tryCatch fun e => .throw (failure e)
  let now ← onPhone .now
  return phoneStatus ctx sent true now

def requestPhoneVerification (ctx : PhoneContext) (raw : String) : PhoneM PhoneStatus := do
  let user ← onPhone .currentUser
  let now ← onPhone .now
  match normalizePhoneNumber ctx.decimal raw with
  | .error message => .throw (invalidPhoneNumber message)
  | .ok phoneNumber =>
    match ← onPhone (.conflict phoneNumber user.id) with
    | some verified => .throw (phoneInUse verified)
    | none =>
      if phoneCooldownElapsed user.phone.sentAt ctx.cooldown now then
        sendAndReport ctx user phoneNumber fun e => if e = .integrity then phoneInUse false else smsDeliveryFailed
      else return phoneStatus ctx user.phone false now

/-- `resend_phone_verification`. -/
def resendPhoneVerification (ctx : PhoneContext) : PhoneM PhoneStatus := do
  let user ← onPhone .currentUser
  let now ← onPhone .now
  match user.phone.phoneNumber.filter (· ≠ "") with
  | none => .throw (invalidPhoneNumber "Add a phone number before requesting a code.")
  | some phoneNumber =>
    if user.phone.phoneVerified then return phoneStatus ctx user.phone false now
    else if phoneCooldownElapsed user.phone.sentAt ctx.cooldown now then
      sendAndReport ctx user phoneNumber fun _ => smsDeliveryFailed
    else return phoneStatus ctx user.phone false now

/-- What a taken code sets. -/
def PhoneColumns.consumed (columns : PhoneColumns) (now : Instant) : PhoneColumns :=
  { columns with phoneVerified := true, phoneVerifiedAt := some now, codeHash := none, expiresAt := none, attempts := 0 }

/-- Take the code that has matched. -/
def consumeCode (user : UserRow) (codeHash : String) (now : Instant) : PhoneM PhoneStatus := do
  if ← onPhone (.consume codeHash now) then return ⟨user.phone.phoneNumber, true, none, none⟩
  else .throw phoneCodeExpired

def verifyPhone (ctx : PhoneContext) (code : String) : PhoneM PhoneStatus := do
  let user ← onPhone .currentUser
  let now ← onPhone .now
  if user.phone.codeHash.isNone || isExpired user.phone.expiresAt now then .throw phoneCodeExpired
  else if attemptsExhausted user.phone.attempts ctx.maxAttempts then .throw phoneCodeAttemptsExceeded
  else
    let matched ← codeMatches ctx user.id code user.phone.codeHash
    if matched then consumeCode user (ctx.hashCode user.id code) now
    else
      onPhone .countGuess
      .throw phoneCodeInvalid

def deletePhoneNumber : PhoneM Unit := do
  let user ← onPhone .currentUser
  onPhone (.commit user.phone {})

end Requests

/-! ## The account and its requests -/

section System

inductive PhoneRequest
  | request (phoneNumber : String)
  | resend
  | verify (code : String)
  | delete

def PhoneRequest.program (ctx : PhoneContext) : PhoneRequest → Proc PhoneSig Unit
  | .request phoneNumber => thread (requestPhoneVerification ctx phoneNumber)
  | .resend => thread (resendPhoneVerification ctx)
  | .verify code => thread (verifyPhone ctx code)
  | .delete => thread deletePhoneNumber

/-- The row and the clock.  Beside them, the digests of the codes drawn, the codes stored with the number each was for,
the numbers of the codes accepted, each with the newest first; the digests that wrong codes were compared against, how many
guesses were counted, and which requests have compared a wrong code that is not counted.  Of each request there is the row
it has read, the wrong codes compared that its read does not count, and the guesses counted since. -/
structure PhoneWorld where
  user : UserRow
  clock : Instant := 0
  minted : List String := []
  issued : List (String × Option String) := []
  accepted : List (Option String) := []
  compared : List String := []
  counted : ℕ := 0
  pending : List ℕ := []
  seen : ℕ → Option UserRow := fun _ => none
  unseen : ℕ → ℕ := fun _ => 0
  since : ℕ → ℕ := fun _ => 0

inductive PhoneTag
  | request (request : PhoneRequest)
  | tick (clock : Instant)

namespace PhoneWorld

variable (ctx : PhoneContext) (w : PhoneWorld)

/-- The number that a code was for. -/
def sentTo (codeHash : String) : Option String := (w.issued.find? (·.1 = codeHash)).bind (·.2)

/-- The conditional UPDATE finds the row. -/
def Takes (codeHash : String) (now : Instant) : Prop :=
  w.user.phone.codeHash = some codeHash ∧ ∃ expires ∈ w.user.phone.expiresAt, now < expires

instance decidableTakes (codeHash : String) (now : Instant) : Decidable (w.Takes codeHash now) :=
  inferInstanceAs (Decidable (_ ∧ _))

/-- The commit of the row: a new digest is a code issued. -/
def commit (loaded assigned : PhoneColumns) : PhoneWorld :=
  { w with
    user := { w.user with phone := loaded.flush assigned w.user.phone }
    issued := if assigned.codeHash = loaded.codeHash then w.issued else
      (assigned.codeHash.map fun codeHash => (codeHash, assigned.phoneNumber)).toList ++ w.issued }

def apply (i : ℕ) : Event PhoneSig → PhoneWorld
  | ⟨.currentUser, .ok user, _, _⟩ => { w with
      seen := Function.update w.seen i (some user)
      unseen := Function.update w.unseen i w.pending.length
      since := Function.update w.since i 0 }
  | ⟨.generateCode, .ok code, _, _⟩ => { w with minted := ctx.hashCode w.user.id code :: w.minted }
  | ⟨.commit loaded assigned, _, true, _⟩ => w.commit loaded assigned
  | ⟨.compareDigest _ codeHash, .ok false, _, _⟩ => { w with
      compared := codeHash :: w.compared
      pending := i :: w.pending
      unseen := fun j => w.unseen j + 1 }
  | ⟨.countGuess, _, true, _⟩ => { w with
      user := { w.user with phone := { w.user.phone with attempts := w.user.phone.attempts + 1 } }
      counted := w.counted + 1
      pending := w.pending.erase i
      since := fun j => w.since j + 1 }
  | ⟨.consume codeHash now, _, true, _⟩ =>
    if w.Takes codeHash now then { w with
      user := { w.user with phone := w.user.phone.consumed now }
      accepted := w.sentTo codeHash :: w.accepted }
    else w
  | _ => w

def Allowed : Event PhoneSig → Prop
  | ⟨.currentUser, .ok user, _, _⟩ => user = w.user
  | ⟨.now, .ok now, _, _⟩ => now = w.clock
  | ⟨.generateCode, .ok code, _, _⟩ => ctx.hashCode w.user.id code ∉ w.minted
  | ⟨.compareDigest candidate codeHash, out, _, _⟩ => out = .ok (decide (candidate = codeHash))
  | ⟨.consume codeHash now, .ok found, _, _⟩ => found = decide (w.Takes codeHash now)
  | _ => True

end PhoneWorld

/-- Requests of the kinds given on one account, and time that passes. -/
def phoneSystem (ctx : PhoneContext) (kinds : PhoneRequest → Prop) : Sys PhoneSig where
  World := PhoneWorld
  Tag := PhoneTag
  spawn w _ tag p w' := match tag with
    | .request request => kinds request ∧ p = request.program ctx ∧ w' = w
    | .tick clock => p = .ret () ∧ w.clock ≤ clock ∧ w' = { w with clock := clock }
  Allowed w _ _ ev := w.Allowed ctx ev
  apply w i _ ev := w.apply ctx i ev

end System

end Transform.Accounts
