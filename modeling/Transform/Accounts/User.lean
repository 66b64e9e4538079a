import Transform.Conversions.Job

/-!
# Accounts.User — the row of an account

The columns of `users` that the links and the phone codes read and write.  A request assigns to a row that it has loaded;
what its commit writes are the columns whose assigned value is not the one loaded.
-/

namespace Transform.Accounts

open Conversions

/-- What a request raises. -/
inductive AccountError
  | http (status : ℕ) (detail : String)
  | coded (status : ℕ) (code message : String)
  | value (message : String)
  | integrity
  | driver (message : String)
  deriving DecidableEq, Repr

/-- What the commit of a row leaves in a column: a value that was assigned and is not the one loaded. -/
def flushed {α : Type} [DecidableEq α] (loaded assigned stored : α) : α := if assigned = loaded then stored else assigned

section Flushed

variable {α : Type} [DecidableEq α] {loaded assigned stored : α}

@[simp] theorem flushed_self : flushed loaded loaded stored = stored := if_pos rfl

theorem flushed_of_ne (h : assigned ≠ loaded) : flushed loaded assigned stored = assigned := if_neg h

/-- The column holds the assigned value, unless it was not written and another request has changed it. -/
theorem flushed_eq_iff : flushed loaded assigned stored = assigned ↔ assigned ≠ loaded ∨ stored = assigned := by
  unfold flushed
  split_ifs with h
  · exact ⟨.inr, fun hor => hor.resolve_left (not_not.2 h)⟩
  · exact ⟨fun _ => .inl h, fun _ => rfl⟩

end Flushed

structure LinkColumns where
  tokenHash : Option String := none
  expiresAt : Option Instant := none
  sentAt : Option Instant := none
  deriving DecidableEq, Repr

def LinkColumns.flush (loaded assigned stored : LinkColumns) : LinkColumns where
  tokenHash := flushed loaded.tokenHash assigned.tokenHash stored.tokenHash
  expiresAt := flushed loaded.expiresAt assigned.expiresAt stored.expiresAt
  sentAt := flushed loaded.sentAt assigned.sentAt stored.sentAt

structure PhoneColumns where
  phoneNumber : Option String := none
  phoneVerified : Bool := false
  phoneVerifiedAt : Option Instant := none
  codeHash : Option String := none
  sentAt : Option Instant := none
  expiresAt : Option Instant := none
  attempts : ℕ := 0
  deriving DecidableEq, Repr

def PhoneColumns.flush (loaded assigned stored : PhoneColumns) : PhoneColumns where
  phoneNumber := flushed loaded.phoneNumber assigned.phoneNumber stored.phoneNumber
  phoneVerified := flushed loaded.phoneVerified assigned.phoneVerified stored.phoneVerified
  phoneVerifiedAt := flushed loaded.phoneVerifiedAt assigned.phoneVerifiedAt stored.phoneVerifiedAt
  codeHash := flushed loaded.codeHash assigned.codeHash stored.codeHash
  sentAt := flushed loaded.sentAt assigned.sentAt stored.sentAt
  expiresAt := flushed loaded.expiresAt assigned.expiresAt stored.expiresAt
  attempts := flushed loaded.attempts assigned.attempts stored.attempts

/-- A row of `users`. -/
structure UserRow where
  id : ℤ
  username : String
  email : String
  hashedPassword : String
  isActive : Bool := true
  emailVerified : Bool := false
  emailVerifiedAt : Option Instant := none
  verification : LinkColumns := {}
  reset : LinkColumns := {}
  phone : PhoneColumns := {}
  deriving DecidableEq, Repr

/-- `cooldown_elapsed`, once the clock is read. -/
def cooldownOver (sentAt : Instant) (cooldown now : Instant) : Bool := sentAt + cooldown ≤ now

/-- `token_is_expired` and `code_is_expired`: a missing expiry is one that has been reached. -/
def isExpired (expiresAt : Option Instant) (now : Instant) : Bool :=
  match expiresAt with
  | some expires => expires ≤ now
  | none => true

end Transform.Accounts
