import Transform.Billing.Programs

/-!
# Billing.Sequential — sessions one after the other

One session at a time against the tables: every row it writes still stands as it read it, so no commit is refused and
each leaves the rows it asks for.
-/

namespace Transform.Billing

open Lib Conversions

/-! ## Writes of rows that still stand -/

section Standing

theorem subscription_flush_self (old new : SubscriptionRow) : old.flush new old = new := by
  simp [SubscriptionRow.flush]

theorem credit_flush_self (old new : CreditRow) : old.flush new old = new := by
  simp [CreditRow.flush]

def RowWrite.Standing {α : Type} : RowWrite α → Option α → Prop
  | .insert _, current => current = none
  | .update old _, current => current = some old

variable {α : Type} {write : RowWrite α} {current : Option α}

theorem RowWrite.Standing.not_clashes (h : write.Standing current) : write.clashes current = false := by
  rcases write with row | ⟨old, new⟩
  · rw [show current = none from h]
    rfl
  · rfl

theorem RowWrite.Standing.not_stale (h : write.Standing current) : write.stale current = false := by
  rcases write with row | ⟨old, new⟩
  · rfl
  · rw [show current = some old from h]
    rfl

theorem RowWrite.Standing.apply {flush : α → α → α → α} (h : write.Standing current)
    (hflush : ∀ old new, flush old new old = new) : write.apply flush current = some write.target := by
  rcases write with row | ⟨old, new⟩
  · rfl
  · rw [show current = some old from h]
    exact congrArg some (hflush old new)

end Standing

/-! ## The tables after a session -/

section Tables

namespace Database

variable (db : Database)

def setSubscription (userId : ℤ) (row : SubscriptionRow) : Database :=
  { db with subscriptions := Function.update db.subscriptions userId (some row) }

def setCredit (ownerId : ℤ) (periodKey : String) (row : CreditRow) : Database :=
  { db with credits := Function.update db.credits ownerId (Function.update (db.credits ownerId) periodKey (some row)) }

def addTransaction (row : CreditTransaction) : Database := { db with transactions := row :: db.transactions }

/-- A reference of the ledger. -/
def Recorded (referenceId : String) : Prop := ∃ row ∈ db.transactions, row.referenceId = some referenceId

end Database

variable {db : Database} {userId : ℤ} {periodKey : String}

theorem select_some {row : SubscriptionRow} (h : db.selectSubscription userId = some row) :
    db.subscriptions userId = some row ∧ row.userId = some userId := by
  unfold Database.selectSubscription at h
  obtain ⟨hrow, hid⟩ := Option.filter_eq_some_iff.1 h
  exact ⟨hrow, by simpa using hid⟩

/-- What a session writes of each table, all of it as it stands. -/
structure Transaction.Standing (db : Database) (tx : Transaction) : Prop where
  subscription : ∀ {userId write}, tx.subscription = some (userId, write) → write.Standing (db.subscriptions userId)
  credit : ∀ {ownerId period write}, tx.credit = some (ownerId, period, write) →
    write.Standing (db.credits ownerId period)
  ledger : ∀ {row referenceId}, tx.ledger = some row → row.referenceId = some referenceId → ¬ db.Recorded referenceId

theorem Transaction.Standing.not_refused {tx : Transaction} (h : tx.Standing db) :
    db.violates tx = false ∧ db.stale tx = false := by
  have hs : ∀ {userId write}, tx.subscription = some (userId, write) →
      write.clashes (db.subscriptions userId) = false ∧ write.stale (db.subscriptions userId) = false :=
    fun htx => ⟨(h.subscription htx).not_clashes, (h.subscription htx).not_stale⟩
  have hc : ∀ {ownerId period write}, tx.credit = some (ownerId, period, write) →
      write.clashes (db.credits ownerId period) = false ∧ write.stale (db.credits ownerId period) = false :=
    fun htx => ⟨(h.credit htx).not_clashes, (h.credit htx).not_stale⟩
  have hl : (tx.ledger.any fun row => row.referenceId.any fun ref =>
      db.transactions.any (·.referenceId = some ref)) = false := by
    rcases hledger : tx.ledger with _ | row
    · rfl
    rcases href : row.referenceId with _ | ref
    · simp [href]
    have hnot := h.ledger hledger href
    simp only [Option.any_some, href, List.any_eq_false, decide_eq_true_eq]
    exact fun t ht heq => hnot ⟨t, ht, heq⟩
  unfold Database.violates Database.stale
  rw [hl]
  rcases hsub : tx.subscription with _ | ⟨userId, write⟩ <;> rcases hcred : tx.credit with _ | ⟨owner, period, w⟩ <;>
    simp [*]

theorem subscriptions_commit {tx : Transaction} {write : RowWrite SubscriptionRow}
    (htx : tx.subscription = some (userId, write)) (h : write.Standing (db.subscriptions userId)) :
    (db.commit tx).subscriptions userId = some write.target := by
  simp [Database.commit, htx, h.apply subscription_flush_self]

end Tables

/-! ## Valid buckets -/

section Valid

/-- A stored bucket that passes its validation. -/
def CreditRow.Valid (row : CreditRow) : Prop := 0 ≤ row.remaining ∧ row.remaining ≤ row.allowance

theorem credit_of_valid {row : CreditRow} (h : row.Valid) :
    ∃ credit, Credit.of row.allowance row.remaining = .ok credit ∧ credit.allowance = row.allowance ∧
      credit.remaining = row.remaining := by
  obtain ⟨h0, hle⟩ := h
  unfold Credit.of
  rw [dif_neg (by omega), dif_neg (by omega), dif_neg (by omega)]
  exact ⟨_, rfl, rfl, rfl⟩

theorem valid_of_credit {row : CreditRow} {credit : Credit} (h : Credit.of row.allowance row.remaining = .ok credit) :
    row.Valid := by
  obtain ⟨ha, hr⟩ := credit_of_ok h
  rw [CreditRow.Valid, ← ha, ← hr]
  exact ⟨credit.remaining_nonneg, credit.remaining_le⟩

end Valid

/-! ## One session -/

section Session

variable {now : Instant} {stripe : Option PlanChangeResult} {db db' : Database} {userId : ℤ} {periodKey : String}

/-- A session at one instant, with nothing else going on. -/
abbrev session (now : Instant) (stripe : Option PlanChangeResult) : Monitor BillSig Database :=
  .of (answering now stripe)

theorem session_call {op : BillOp} {a : op.Ans} {Q : op.Ans → Database → Prop} {E : PyError → Database → Prop}
    (hr : (answering now stripe).reply db op = .ok a) (h : Q a (db.after (.done op (.ok a)))) :
    wpe (session now stripe) (Billing.call op) Q E db := by
  refine (wpe_ask_of (answering now stripe)).2 ?_
  rw [hr]
  exact h

theorem session_read {op : BillOp} {a : op.Ans} {Q : op.Ans → Database → Prop} {E : PyError → Database → Prop}
    (hr : (answering now stripe).reply db op = .ok a) (hdb : db.after (.done op (.ok a)) = db) (h : Q a db) :
    wpe (session now stripe) (Billing.call op) Q E db :=
  session_call hr (hdb.symm ▸ h)

theorem session_commit {tx : Transaction} {Q : Unit → Database → Prop} {E : PyError → Database → Prop}
    (htx : tx.Standing db) (h : Q () (db.commit tx)) : wpe (session now stripe) (Billing.call (.commit tx)) Q E db := by
  obtain ⟨hv, hst⟩ := htx.not_refused
  refine session_call (a := ()) ?_ h
  simp [answering, hv, hst]

theorem session_commit_cases {tx : Transaction} {Q : Unit → Database → Prop} {E : PyError → Database → Prop}
    (hok : Q () (db.commit tx)) (hE : ∀ e, E e db) : wpe (session now stripe) (Billing.call (.commit tx)) Q E db := by
  refine (wpe_ask_of (answering now stripe)).2 ?_
  rcases hr : (answering now stripe).reply db (.commit tx) with e | a
  · exact hE e
  · exact hok

theorem session_stageCredit {row : CreditRow} {Q : ℤ × String × RowWrite CreditRow → Database → Prop}
    {E : PyError → Database → Prop}
    (h : ∀ write, write.target = row → write.Standing (db.credits userId periodKey) → Q (userId, periodKey, write) db) :
    wpe (session now stripe) (stageCredit userId periodKey row) Q E db := by
  unfold stageCredit
  rw [wpe_bind]
  refine session_read rfl rfl ?_
  rcases hrow : db.credits userId periodKey with _ | old
  · exact h (.insert row) rfl hrow
  · exact h (.update old row) rfl hrow

theorem session_saveCredit {row : CreditRow} {Q : Unit → Database → Prop} {E : PyError → Database → Prop}
    (h : Q () (db.setCredit userId periodKey row)) :
    wpe (session now stripe) (saveCredit userId periodKey row) Q E db := by
  unfold saveCredit
  rw [wpe_bind]
  refine session_stageCredit fun write htarget hwrite => ?_
  have hset : db.commit { credit := some (userId, periodKey, write) } = db.setCredit userId periodKey row := by
    simp [Database.commit, Database.setCredit, hwrite.apply credit_flush_self, htarget]
  refine session_commit ⟨fun h => (by cases h), fun h => (by cases h; exact hwrite), fun h => (by cases h)⟩ ?_
  rw [hset]
  exact h

/-- The row that `upsert_subscription` leaves. -/
def upserted (db : Database) (userId : ℤ) (tier : SubscriptionTier) (customer subscription : Option String) :
    SubscriptionRow :=
  match db.subscriptions userId with
  | none => .fresh userId tier customer subscription
  | some row => row.assign userId tier customer subscription

theorem session_upsert {tier : SubscriptionTier} {customer subscription : Option String} {Q : Unit → Database → Prop}
    {E : PyError → Database → Prop}
    (h : Q () (db.setSubscription userId (upserted db userId tier customer subscription))) :
    wpe (session now stripe) (upsertSubscription userId tier customer subscription) Q E db := by
  unfold upsertSubscription
  rw [wpe_bind]
  refine session_read rfl rfl ?_
  have hcommit : ∀ write : RowWrite SubscriptionRow, write.Standing (db.subscriptions userId) →
      write.target = upserted db userId tier customer subscription →
      wpe (session now stripe) (Billing.call (.commit { subscription := some (userId, write) })) Q E db := by
    intro write hwrite htarget
    refine session_commit ⟨fun h => (by cases h; exact hwrite), fun h => (by cases h), fun h => (by cases h)⟩ ?_
    have hset : db.commit { subscription := some (userId, write) } =
        db.setSubscription userId (upserted db userId tier customer subscription) := by
      simp [Database.commit, Database.setSubscription, hwrite.apply subscription_flush_self, htarget]
    rw [hset]
    exact h
  unfold upserted at hcommit h
  rcases hrow : db.subscriptions userId with _ | row <;> rw [hrow] at hcommit
  · exact hcommit (.insert _) rfl rfl
  · exact hcommit (.update _ _) rfl rfl

theorem session_getCredit {Q : Option Credit → Database → Prop} {E : PyError → Database → Prop}
    (hnone : db.credits userId periodKey = none → Q none db)
    (hok : ∀ row credit, db.credits userId periodKey = some row → Credit.of row.allowance row.remaining = .ok credit →
      Q (some credit) db)
    (hE : ∀ row e, db.credits userId periodKey = some row → Credit.of row.allowance row.remaining = .error e →
      E e db) :
    wpe (session now stripe) (getCredit userId periodKey) Q E db := by
  unfold getCredit
  rw [wpe_bind]
  refine session_read rfl rfl ?_
  rcases hrow : db.credits userId periodKey with _ | row
  · exact hnone hrow
  · show wpe _ (do let credit ← .ofExcept (Credit.of row.allowance row.remaining); pure (some credit)) Q E db
    rw [wpe_bind]
    exact wpe_ofExcept (fun credit hc => hok row credit hrow hc) fun e he => hE row e hrow he

end Session

end Transform.Billing
