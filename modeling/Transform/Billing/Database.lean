import Mathlib.Data.List.Sort
import Mathlib.Logic.Function.Basic
import Transform.Lib.Proc
import Transform.Billing.CreditWallet

/-!
# Billing.Database — the tables behind the wallet, and what a session does to them

`user_subscriptions`, `monthly_credits` and `credit_transactions`, read-committed: a SELECT sees what is committed
and takes no lock, and what a session changed becomes visible with its commit.  An UPDATE writes the columns that
differ from the row as the session loaded it, with the values it computed; the others keep what they hold by then.
A commit that breaks a unique constraint raises `IntegrityError`, one that updates a missing row raises too, and
neither has an effect.
-/

namespace Transform.Billing

open Lib Conversions

/-! ## Tables -/

section Tables

/-- The row of `user_subscriptions` at the key `user:{id}`.  Without a `user_id` no query by user finds it. -/
structure SubscriptionRow where
  userId : Option ℤ
  tier : SubscriptionTier
  stripeCustomerId : Option String := none
  stripeSubscriptionId : Option String := none
  purchasedCredits : ℤ := 0
  carryoverCredits : ℤ := 0
  carryoverExpiresAt : Option Instant := none
  purchasedCreditsFirst : Bool := false
  deriving DecidableEq, Repr

/-- A row of `monthly_credits`, as stored. -/
structure CreditRow where
  allowance : ℤ
  remaining : ℤ
  deriving DecidableEq, Repr

inductive TransactionType
  | purchase
  | consumption
  | refund
  | bonus
  | carryover
  deriving DecidableEq, Repr

/-- A row of `credit_transactions`. -/
structure CreditTransaction where
  id : String
  userId : ℤ
  amount : ℤ
  transactionType : TransactionType
  referenceId : Option String
  createdAt : Instant
  deriving DecidableEq, Repr

structure Database where
  subscriptions : ℤ → Option SubscriptionRow
  credits : ℤ → String → Option CreditRow
  transactions : List CreditTransaction

def purchasedBalance (userId : ℤ) (db : Database) : ℤ := (db.subscriptions userId).elim 0 (·.purchasedCredits)

end Tables

/-! ## Pending changes -/

section Changes

/-- What an UPDATE leaves in a column: the new value where the session changed it. -/
def flushed {α : Type} [DecidableEq α] (old new current : α) : α := if new = old then current else new

@[simp] theorem flushed_same {α : Type} [DecidableEq α] (old current : α) : flushed old old current = current :=
  if_pos rfl

/-- A column that still holds what the session read ends up with what it computed. -/
@[simp] theorem flushed_current {α : Type} [DecidableEq α] (old new : α) : flushed old new old = new := by
  unfold flushed
  split_ifs with h
  · exact h.symm
  · rfl

/-- What a session does to a row: insert it, or change the row it loaded. -/
inductive RowWrite (α : Type)
  | insert (row : α)
  | update (old new : α)

def SubscriptionRow.flush (old new current : SubscriptionRow) : SubscriptionRow where
  userId := flushed old.userId new.userId current.userId
  tier := flushed old.tier new.tier current.tier
  stripeCustomerId := flushed old.stripeCustomerId new.stripeCustomerId current.stripeCustomerId
  stripeSubscriptionId := flushed old.stripeSubscriptionId new.stripeSubscriptionId current.stripeSubscriptionId
  purchasedCredits := flushed old.purchasedCredits new.purchasedCredits current.purchasedCredits
  carryoverCredits := flushed old.carryoverCredits new.carryoverCredits current.carryoverCredits
  carryoverExpiresAt := flushed old.carryoverExpiresAt new.carryoverExpiresAt current.carryoverExpiresAt
  purchasedCreditsFirst := flushed old.purchasedCreditsFirst new.purchasedCreditsFirst current.purchasedCreditsFirst

def CreditRow.flush (old new current : CreditRow) : CreditRow where
  allowance := flushed old.allowance new.allowance current.allowance
  remaining := flushed old.remaining new.remaining current.remaining

/-- What a commit makes durable: at most a row of each table. -/
structure Transaction where
  subscription : Option (ℤ × RowWrite SubscriptionRow) := none
  credit : Option (ℤ × String × RowWrite CreditRow) := none
  ledger : Option CreditTransaction := none

def RowWrite.target {α : Type} : RowWrite α → α
  | .insert row => row
  | .update _ new => new

def RowWrite.apply {α : Type} (flush : α → α → α → α) : RowWrite α → Option α → Option α
  | .insert row, _ => some row
  | .update old new, current => current.map (flush old new)

/-- An INSERT over an existing key. -/
def RowWrite.clashes {α : Type} : RowWrite α → Option α → Bool
  | .insert _, current => current.isSome
  | .update _ _, _ => false

def RowWrite.stale {α : Type} : RowWrite α → Option α → Bool
  | .insert _, _ => false
  | .update _ _, current => current.isNone

namespace Database

variable (db : Database)

/-- The row as queries by user see it. -/
def selectSubscription (userId : ℤ) : Option SubscriptionRow :=
  (db.subscriptions userId).filter (·.userId = some userId)

def listTransactions (userId : ℤ) (limit : ℕ) : List CreditTransaction :=
  ((db.transactions.filter (·.userId = userId)).insertionSort fun a b => b.createdAt ≤ a.createdAt).take limit

/-- The commit breaks a unique constraint: a key of the tables, or the reference of a ledger row. -/
def violates (tx : Transaction) : Bool :=
  (tx.subscription.any fun (userId, write) => write.clashes (db.subscriptions userId)) ||
    (tx.credit.any fun (ownerId, periodKey, write) => write.clashes (db.credits ownerId periodKey)) ||
    tx.ledger.any fun row => row.referenceId.any fun ref => db.transactions.any (·.referenceId = some ref)

/-- The commit updates a row that is not there. -/
def stale (tx : Transaction) : Bool :=
  (tx.subscription.any fun (userId, write) => write.stale (db.subscriptions userId)) ||
    tx.credit.any fun (ownerId, periodKey, write) => write.stale (db.credits ownerId periodKey)

/-- The tables after a commit. -/
def commit (tx : Transaction) : Database where
  subscriptions :=
    match tx.subscription with
    | some (userId, write) =>
      Function.update db.subscriptions userId (write.apply SubscriptionRow.flush (db.subscriptions userId))
    | none => db.subscriptions
  credits :=
    match tx.credit with
    | some (ownerId, periodKey, write) => Function.update db.credits ownerId
        (Function.update (db.credits ownerId) periodKey (write.apply CreditRow.flush (db.credits ownerId periodKey)))
    | none => db.credits
  transactions := tx.ledger.toList ++ db.transactions

end Database

variable {db : Database} {tx : Transaction} {userId : ℤ}

theorem subscriptions_commit_update {old new : SubscriptionRow}
    (htx : tx.subscription = some (userId, .update old new)) (hst : db.stale tx = false) :
    ∃ current, db.subscriptions userId = some current ∧
      (db.commit tx).subscriptions userId = some (old.flush new current) := by
  have hsome : (db.subscriptions userId).isSome := by
    simp only [Database.stale, htx, Option.any_some, Bool.or_eq_false_iff, RowWrite.stale] at hst
    simpa using hst.1
  obtain ⟨current, hc⟩ := Option.isSome_iff_exists.1 hsome
  refine ⟨current, hc, ?_⟩
  simp [Database.commit, htx, hc, RowWrite.apply]

theorem subscriptions_commit_insert {row : SubscriptionRow} (htx : tx.subscription = some (userId, .insert row))
    (hv : db.violates tx = false) :
    db.subscriptions userId = none ∧ (db.commit tx).subscriptions userId = some row := by
  constructor
  · have hnone : (db.subscriptions userId).isSome = false := by
      simp only [Database.violates, htx, Option.any_some, Bool.or_eq_false_iff, RowWrite.clashes] at hv
      exact hv.1.1
    simpa using hnone
  · simp [Database.commit, htx, RowWrite.apply]

theorem subscriptions_commit_none (htx : tx.subscription = none) :
    (db.commit tx).subscriptions = db.subscriptions := by
  simp [Database.commit, htx]

theorem subscriptions_commit_of_ne {write : RowWrite SubscriptionRow} {other : ℤ}
    (htx : tx.subscription = some (userId, write)) (hne : other ≠ userId) :
    (db.commit tx).subscriptions other = db.subscriptions other := by
  simp [Database.commit, htx, hne]

end Changes

/-! ## Sessions -/

section Sessions

/-- What Stripe answers to a change of plan. -/
structure PlanChangeResult where
  previousPeriodEnd : Option Instant
  scheduledEffectiveAt : Option Instant
  deriving DecidableEq, Repr

inductive BillOp
  | utcNow
  | uuid4
  | getSubscription (userId : ℤ)
  | selectSubscription (userId : ℤ)
  | selectCredit (ownerId : ℤ) (periodKey : String)
  | listTransactions (userId : ℤ) (limit : ℕ)
  | commit (tx : Transaction)
  | changeSubscriptionPlan (subscriptionId newPriceId : String) (userId : ℤ) (tier : SubscriptionTier)
      (isUpgrade : Bool)
  | respond (statusCode : ℕ)

abbrev BillOp.Ans : BillOp → Type
  | .utcNow => Instant
  | .uuid4 => String
  | .getSubscription _ => Option SubscriptionRow
  | .selectSubscription _ => Option SubscriptionRow
  | .selectCredit _ _ => Option CreditRow
  | .listTransactions _ _ => List CreditTransaction
  | .commit _ => Unit
  | .changeSubscriptionPlan _ _ _ _ _ => Option PlanChangeResult
  | .respond _ => Unit

abbrev BillSig : Sig := ⟨BillOp, BillOp.Ans, PyError⟩

abbrev BillM (α : Type) : Type := Act BillSig PyError α

def call (op : BillOp) : BillM op.Ans := ask (S := BillSig) op

namespace Database

/-- The tables after an exchange. -/
def after (db : Database) : Event BillSig → Database
  | ⟨.commit tx, _, true, _⟩ => db.commit tx
  | _ => db

/-- The answers the tables allow: reads see what is committed, and a commit is not refused. -/
def AllowedAnswer (db : Database) : (op : BillOp) → op.Ans → Prop
  | .getSubscription userId, row => row = db.subscriptions userId
  | .selectSubscription userId, row => row = db.selectSubscription userId
  | .selectCredit ownerId periodKey, row => row = db.credits ownerId periodKey
  | .listTransactions userId limit, rows => rows = db.listTransactions userId limit
  | .commit tx, _ => db.violates tx = false ∧ db.stale tx = false
  | _, _ => True

/-- The exceptions they allow: a commit that they refuse has no effect, and only one that breaks a constraint raises
`IntegrityError`. -/
def AllowedError (db : Database) (op : BillOp) (e : PyError) (took : Bool) : Prop :=
  match op with
  | .commit tx =>
    (took = true → db.violates tx = false ∧ db.stale tx = false) ∧
      (e.cls = .integrityError → db.violates tx = true ∧ took = false)
  | _ => e.cls ≠ .integrityError

def Allowed (db : Database) (ev : Event BillSig) : Prop :=
  match ev.out with
  | .ok answer => db.AllowedAnswer ev.op answer
  | .error e => db.AllowedError ev.op e ev.took

instance decidableAnswer (db : Database) : (op : BillOp) → (answer : op.Ans) → Decidable (db.AllowedAnswer op answer)
  | .getSubscription userId, row => inferInstanceAs (Decidable (row = db.subscriptions userId))
  | .selectSubscription userId, row => inferInstanceAs (Decidable (row = db.selectSubscription userId))
  | .selectCredit ownerId periodKey, row => inferInstanceAs (Decidable (row = db.credits ownerId periodKey))
  | .listTransactions userId limit, rows => inferInstanceAs (Decidable (rows = db.listTransactions userId limit))
  | .commit tx, _ => inferInstanceAs (Decidable (db.violates tx = false ∧ db.stale tx = false))
  | .utcNow, _ | .uuid4, _ | .changeSubscriptionPlan _ _ _ _ _, _ | .respond _, _ => isTrue trivial

instance decidableError (db : Database) (op : BillOp) (e : PyError) (took : Bool) :
    Decidable (db.AllowedError op e took) := by
  unfold AllowedError
  split <;> infer_instance

instance decidableAllowed (db : Database) (ev : Event BillSig) : Decidable (db.Allowed ev) :=
  match h : ev.out with
  | .ok answer => decidable_of_iff (db.AllowedAnswer ev.op answer) (by rw [Allowed, h])
  | .error e => decidable_of_iff (db.AllowedError ev.op e ev.took) (by rw [Allowed, h])

end Database

/-- The error of a commit that breaks a constraint. -/
def integrityError : PyError := ⟨.integrityError, "UNIQUE constraint failed"⟩

def staleDataError : PyError := ⟨.other, "UPDATE statement on table expected to update 1 row(s); 0 were matched."⟩

/-- A database that answers, at one instant, with the given answer of Stripe. -/
def answering (now : Instant) (stripe : Option PlanChangeResult) : Env BillSig Database where
  reply db
    | .utcNow => .ok now
    | .uuid4 => .ok "transaction"
    | .getSubscription userId => .ok (db.subscriptions userId)
    | .selectSubscription userId => .ok (db.selectSubscription userId)
    | .selectCredit ownerId periodKey => .ok (db.credits ownerId periodKey)
    | .listTransactions userId limit => .ok (db.listTransactions userId limit)
    | .commit tx =>
      if db.violates tx then .error integrityError else if db.stale tx then .error staleDataError else .ok ()
    | .changeSubscriptionPlan _ _ _ _ _ => .ok stripe
    | .respond _ => .ok ()
  effect := Database.after

end Sessions

end Transform.Billing
