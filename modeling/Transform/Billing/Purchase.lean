import Mathlib.Algebra.BigOperators.Group.List.Basic
import Mathlib.Data.List.Dedup
import Transform.Lib.Interleave
import Transform.Conversions.Message
import Transform.Billing.Sequential

/-!
# Billing.Purchase — deliveries of credit purchases

A checkout session is delivered any number of times, its deliveries overlapping exchange by exchange; sessions follow
one another, and may come again.  `purchases_exact`: the purchased credits grow by each delivered session once, and the
ledger has one row for it.
-/

namespace Transform.Billing

open Lib Conversions

/-! ## Sessions and what a delivery has seen -/

section Sessions

/-- A purchase that a session may grant: reference, user and credits. -/
structure CreditPurchase where
  referenceId : String
  userId : ℤ
  credits : ℤ
  deriving DecidableEq, Repr

/-- What a session is good for: an in-range purchase of a known user, under an id. -/
def CheckoutSession.purchase (s : CheckoutSession) : Option CreditPurchase :=
  match s.metadata.userId, truthy s.id with
  | some userId, some ref =>
    if 1 ≤ purchasedUnits s.metadata ∧ purchasedUnits s.metadata ≤ 100000 then
      some ⟨ref, userId, purchasedUnits s.metadata⟩
    else none
  | _, _ => none

def CheckoutSession.withStatus (s : CheckoutSession) (status : Option String) : CheckoutSession :=
  { s with paymentStatus := status }

/-- The delivery is fulfilled. -/
def paid (status : Option String) : Prop := status ≠ some "unpaid"

instance (status : Option String) : Decidable (paid status) := inferInstanceAs (Decidable (status ≠ some "unpaid"))

/-- What a delivery has learnt: the rows it read, that it created or updated the user's row, and that the purchase is
on the ledger. -/
structure Notes where
  loaded : Option SubscriptionRow := none
  selected : Option SubscriptionRow := none
  ready : Bool := false
  settled : Bool := false

def Notes.step (ref : String) (notes : Notes) : Event BillSig → Notes
  | ⟨.getSubscription _, .ok row, _, _⟩ => { notes with loaded := row }
  | ⟨.selectSubscription _, .ok row, _, _⟩ => { notes with selected := row }
  | ⟨.listTransactions _ _, .ok rows, _, _⟩ => { notes with settled := notes.settled || isListed ref rows }
  | ⟨.commit tx, .ok _, _, _⟩ =>
    if tx.ledger.isSome then { notes with settled := true } else { notes with ready := true }
  | ⟨.commit tx, .error e, _, _⟩ =>
    if tx.ledger.isSome ∧ e.cls = .integrityError then { notes with settled := true } else notes
  | _ => notes

/-- The row of the user is created, or updated as it was loaded. -/
def UpsertTx (userId : ℤ) (notes : Notes) (tx : Transaction) : Prop :=
  tx.credit = none ∧ tx.ledger = none ∧
    (tx.subscription = some (userId, .insert (.fresh userId .free none none)) ∨
      ∃ row, notes.loaded = some row ∧ tx.subscription = some (userId, .update row (row.assign userId .free none none)))

/-- The wallet of the row as it was selected grows by the credits, with their row of the ledger. -/
def PurchaseTx (p : CreditPurchase) (notes : Notes) (tx : Transaction) : Prop :=
  ∃ row id now, notes.selected = some row ∧ tx.credit = none ∧
    tx.subscription = some (p.userId, .update row { row with purchasedCredits := row.purchasedCredits + p.credits }) ∧
    tx.ledger = some ⟨id, p.userId, p.credits, .purchase, some p.referenceId, now⟩

/-- Watches a delivery of a purchase: what it commits, and that a paid one answers only once it is settled. -/
def purchaseMonitor (p : CreditPurchase) (status : Option String) : Monitor BillSig Notes where
  pre notes op := match op with
    | .commit tx => paid status ∧ (UpsertTx p.userId notes tx ∨ PurchaseTx p notes tx)
    | .respond _ => paid status → notes.settled = true
    | .getSubscription userId => userId = p.userId
    | .selectSubscription userId => userId = p.userId
    | _ => True
  rely notes ev := match ev with
    | ⟨.commit _, _, _, _⟩ => True
    | ⟨.selectSubscription _, .ok row, _, _⟩ => row = none → notes.ready = false
    | ⟨_, .error e, _, _⟩ => e.cls ≠ .integrityError
    | _ => True
  step := Notes.step p.referenceId

end Sessions

/-! ## The delivery -/

section Delivery

variable {p : CreditPurchase} {status : Option String}

/-- `upsert_subscription` commits the row as it loaded it; from then on the user has a row. -/
theorem delivery_upsert (hpaid : paid status) {notes : Notes} :
    wpe (purchaseMonitor p status) (upsertSubscription p.userId .free none none) (fun _ notes' => notes'.ready = true)
      (fun _ _ => True) notes := by
  unfold upsertSubscription
  rw [wpe_bind]
  refine wpe_ask.2 ⟨rfl, fun row _ => ?_, fun _ _ _ _ => trivial⟩
  have hready : ∀ (notes' : Notes) (write : RowWrite SubscriptionRow),
      UpsertTx p.userId notes' { subscription := some (p.userId, write) } →
      wpe (purchaseMonitor p status) (Billing.call (.commit { subscription := some (p.userId, write) }))
        (fun _ notes' => notes'.ready = true) (fun _ _ => True) notes' := by
    intro notes' write h
    exact wpe_ask.2 ⟨⟨hpaid, .inl h⟩, fun _ _ => rfl, fun _ _ _ _ => trivial⟩
  rcases row with _ | row
  · exact hready _ _ ⟨rfl, rfl, .inl rfl⟩
  · exact hready _ _ ⟨rfl, rfl, .inr ⟨row, rfl, rfl⟩⟩

theorem delivery_record (hpaid : paid status) {notes : Notes} {row : SubscriptionRow}
    (hrow : notes.selected = some row) :
    wpe (purchaseMonitor p status) (recordPurchase p.userId p.credits p.referenceId row)
      (fun _ notes' => notes'.settled = true) (fun _ _ => True) notes := by
  unfold recordPurchase
  simp only [wpe_tryCatch, wpe_bind]
  have hraise : ∀ (e : PyError) (notes' : Notes), e.cls ≠ .integrityError → wpe (purchaseMonitor p status)
      (if e.cls = .integrityError then pure () else .throw e) (fun _ notes' => notes'.settled = true)
      (fun _ _ => True) notes' := by
    intro e notes' he
    rw [if_neg he]
    exact trivial
  refine wpe_ask.2 ⟨trivial, fun id _ => ?_, fun e _ _ he => hraise e _ he⟩
  refine wpe_ask.2 ⟨trivial, fun now _ => ?_, fun e _ _ he => hraise e _ he⟩
  refine wpe_ask.2 ⟨⟨hpaid, .inr ⟨row, id, now, hrow, rfl, rfl, rfl⟩⟩, fun _ _ => rfl, fun e took h _ => ?_⟩
  split_ifs with he
  · have hsettled : (if (true : Bool) = true ∧ e.cls = .integrityError then { notes with settled := true }
        else notes) = { notes with settled := true } := if_pos ⟨rfl, he⟩
    exact congrArg Notes.settled hsettled
  · exact trivial

/-- **A paid delivery** that returns has its purchase on the ledger. -/
theorem delivery_grant (hpaid : paid status) (hcredits : 1 ≤ p.credits ∧ p.credits ≤ 100000) {notes : Notes}
    (href : p.referenceId ≠ "") :
    wpe (purchaseMonitor p status) (grantPurchasedCredits p.userId p.credits (some p.referenceId))
      (fun _ notes' => notes'.settled = true) (fun _ _ => True) notes := by
  have htruthy : truthy (some p.referenceId) = some p.referenceId := by simp [truthy, href]
  unfold grantPurchasedCredits
  rw [htruthy]
  dsimp only
  rw [if_neg (by omega)]
  unfold grantUnlessListed
  rw [wpe_bind]
  refine wpe_ask.2 ⟨trivial, fun rows _ => ?_, fun _ _ _ _ => trivial⟩
  split_ifs with hlisted
  · show (notes.settled || isListed p.referenceId rows) = true
    rw [hlisted, Bool.or_true]
  unfold addPurchase walletRow
  simp only [wpe_bind]
  refine wpe_ask.2 ⟨rfl, fun row _ => ?_, fun _ _ _ _ => trivial⟩
  rcases row with _ | row
  · simp only [wpe_bind]
    refine wpe_mono (delivery_upsert hpaid) (fun _ notes' hready => ?_) fun _ _ _ => trivial
    refine wpe_ask.2 ⟨rfl, fun row hrely => ?_, fun _ _ _ _ => trivial⟩
    rcases row with _ | row
    · have hnot : notes'.ready = false := hrely rfl
      rw [hready] at hnot
      cases hnot
    · exact delivery_record hpaid rfl
  · exact delivery_record hpaid rfl

end Delivery

/-! ## Rounds: overlapping deliveries of one session -/

section Rounds

/-- The tables, with what each delivery has learnt; whether a paid delivery was started, and whether one was answered
with a 200. -/
structure PurchaseWorld where
  db : Database
  notes : ℕ → Notes := fun _ => {}
  started : Bool := false
  answered : Bool := false

def answers : Event BillSig → Bool
  | ⟨.respond _, .ok _, _, _⟩ => true
  | _ => false

/-- Deliveries of one session, each with its payment status. -/
def purchaseSystem (prices : StripePrices) (s : CheckoutSession) : Sys BillSig where
  World := PurchaseWorld
  Tag := Option String
  spawn w i status p w' := p = thread (handleStripeWebhook prices (s.withStatus status)) ∧
    w' = { w with notes := Function.update w.notes i {}, started := w.started || paid status }
  Allowed w _ _ ev := w.db.Allowed ev
  apply w i status ev :=
    { w with
      db := w.db.after ev
      notes := Function.update w.notes i ((w.notes i).step (s.id.getD "") ev)
      answered := w.answered || (paid status ∧ answers ev) }

end Rounds

/-! ## What a commit of a delivery does -/

section Commits

variable {p : CreditPurchase} {db₀ db : Database} {tx : Transaction} {notes : Notes}

/-- A query by user finds the row. -/
def Visible (userId : ℤ) (db : Database) : Prop := ∃ row, db.subscriptions userId = some row ∧ row.userId = some userId

theorem select_isSome_of_visible {userId : ℤ} (h : Visible userId db) : db.selectSubscription userId ≠ none := by
  obtain ⟨row, hrow, hid⟩ := h
  simp [Database.selectSubscription, hrow, hid]

/-- The purchased credits of the user and the ledger stand, or have grown by the purchase, which was not yet
recorded. -/
def Granted (p : CreditPurchase) (db₀ db : Database) : Prop :=
  (db.transactions = db₀.transactions ∧ purchasedBalance p.userId db = purchasedBalance p.userId db₀) ∨
    ¬ db₀.Recorded p.referenceId ∧ (∃ id now, db.transactions =
      ⟨id, p.userId, p.credits, .purchase, some p.referenceId, now⟩ :: db₀.transactions) ∧
      purchasedBalance p.userId db = purchasedBalance p.userId db₀ + p.credits

/-- What a delivery's notes say of the tables: they stay true as others commit. -/
structure Known (p : CreditPurchase) (db₀ db : Database) (notes : Notes) : Prop where
  loaded : ∀ row, notes.loaded = some row → row.userId = some p.userId → Visible p.userId db
  selected : ∀ row, notes.selected = some row →
    row.purchasedCredits = purchasedBalance p.userId db₀ ∨ db.Recorded p.referenceId
  ready : notes.ready = true → Visible p.userId db
  settled : notes.settled = true → db.Recorded p.referenceId

/-- What a commit keeps: the grant stays single, other users' rows stand, and nothing recorded or visible is lost. -/
structure Advances (p : CreditPurchase) (db₀ db db' : Database) : Prop where
  granted : Granted p db₀ db'
  others : ∀ userId, userId ≠ p.userId → db'.subscriptions userId = db.subscriptions userId
  recorded : db.Recorded p.referenceId → db'.Recorded p.referenceId
  visible : Visible p.userId db → Visible p.userId db'

theorem Known.advance {db' : Database} (h : Known p db₀ db notes) (ha : Advances p db₀ db db') :
    Known p db₀ db' notes where
  loaded row hrow hid := ha.visible (h.loaded row hrow hid)
  selected row hrow := (h.selected row hrow).imp_right ha.recorded
  ready hready := ha.visible (h.ready hready)
  settled hsettled := ha.recorded (h.settled hsettled)

theorem transactions_commit : (db.commit tx).transactions = tx.ledger.toList ++ db.transactions := rfl

theorem recorded_commit {ref : String} (h : db.Recorded ref) : (db.commit tx).Recorded ref := by
  obtain ⟨row, hrow, href⟩ := h
  exact ⟨row, List.mem_append_right _ hrow, href⟩

theorem visible_commit {old new : SubscriptionRow} (htx : tx.subscription = some (p.userId, .update old new))
    (hst : db.stale tx = false) (hnew : new.userId = old.userId ∨ new.userId = some p.userId)
    (h : Visible p.userId db) : Visible p.userId (db.commit tx) := by
  obtain ⟨current, hc, hc'⟩ := subscriptions_commit_update htx hst
  obtain ⟨row, hrow, hid⟩ := h
  obtain rfl : row = current := by
    rw [hc] at hrow
    exact (Option.some.inj hrow).symm
  refine ⟨_, hc', ?_⟩
  show flushed old.userId new.userId row.userId = some p.userId
  unfold flushed
  split_ifs with hsame
  · exact hid
  · rcases hnew with hnew | hnew
    · exact absurd hnew hsame
    · exact hnew

/-- Creating or updating the row leaves the purchased credits, and makes the row visible. -/
theorem advances_of_upsert (hg : Granted p db₀ db) (hk : Known p db₀ db notes) (htx : UpsertTx p.userId notes tx)
    (hv : db.violates tx = false) (hst : db.stale tx = false) :
    Advances p db₀ db (db.commit tx) ∧ Visible p.userId (db.commit tx) := by
  obtain ⟨-, hledger, hsub⟩ := htx
  have htrans : (db.commit tx).transactions = db.transactions := by
    rw [transactions_commit, hledger]
    rfl
  have hmain : purchasedBalance p.userId (db.commit tx) = purchasedBalance p.userId db ∧
      Visible p.userId (db.commit tx) ∧ ∀ userId, userId ≠ p.userId →
        (db.commit tx).subscriptions userId = db.subscriptions userId := by
    rcases hsub with hsub | ⟨row, hrow, hsub⟩
    · obtain ⟨hnone, hsome⟩ := subscriptions_commit_insert hsub hv
      refine ⟨?_, ⟨_, hsome, rfl⟩, fun userId hne => subscriptions_commit_of_ne hsub hne⟩
      unfold purchasedBalance
      rw [hnone, hsome]
      rfl
    · obtain ⟨current, hc, hc'⟩ := subscriptions_commit_update hsub hst
      refine ⟨?_, ?_, fun userId hne => subscriptions_commit_of_ne hsub hne⟩
      · unfold purchasedBalance
        rw [hc, hc']
        simp [SubscriptionRow.flush, SubscriptionRow.assign]
      · by_cases hid : row.userId = some p.userId
        · exact visible_commit hsub hst (.inr rfl) (hk.loaded row hrow hid)
        · refine ⟨_, hc', ?_⟩
          show flushed row.userId (some p.userId) current.userId = some p.userId
          unfold flushed
          rw [if_neg (Ne.symm hid)]
  obtain ⟨hbalance, hvisible, hothers⟩ := hmain
  refine ⟨⟨?_, hothers, recorded_commit, fun _ => hvisible⟩, hvisible⟩
  unfold Granted
  rw [htrans, hbalance]
  exact hg

theorem not_recorded_of_not_violates {row : CreditTransaction} {ref : String} (hledger : tx.ledger = some row)
    (href : row.referenceId = some ref) (hv : db.violates tx = false) : ¬ db.Recorded ref := by
  rintro ⟨t, ht, htref⟩
  simp only [Database.violates, hledger, Option.any_some, Bool.or_eq_false_iff, href, List.any_eq_false,
    decide_eq_true_eq] at hv
  exact hv.2 t ht htref

theorem recorded_of_granted (h : Granted p db₀ db) (hnot : ¬ db.Recorded p.referenceId) :
    ¬ db₀.Recorded p.referenceId ∧ db.transactions = db₀.transactions ∧
      purchasedBalance p.userId db = purchasedBalance p.userId db₀ := by
  rcases h with ⟨htrans, hbalance⟩ | ⟨-, ⟨id, now, htrans⟩, -⟩
  · refine ⟨fun hrec => hnot ?_, htrans, hbalance⟩
    obtain ⟨t, ht, href⟩ := hrec
    exact ⟨t, htrans ▸ ht, href⟩
  · have hmem : (⟨id, p.userId, p.credits, .purchase, some p.referenceId, now⟩ : CreditTransaction) ∈
        db.transactions := by
      rw [htrans]
      exact List.mem_cons_self ..
    exact absurd ⟨_, hmem, rfl⟩ hnot

/-- The purchase goes through once: its reference was not taken, so the row it was computed from still stands. -/
theorem advances_of_purchase (hg : Granted p db₀ db) (hk : Known p db₀ db notes) (htx : PurchaseTx p notes tx)
    (hv : db.violates tx = false) (hst : db.stale tx = false) :
    Advances p db₀ db (db.commit tx) ∧ (db.commit tx).Recorded p.referenceId := by
  obtain ⟨row, id, now, hrow, -, hsub, hledger⟩ := htx
  have hnot := not_recorded_of_not_violates hledger rfl hv
  obtain ⟨hnot₀, htrans, hbalance⟩ := recorded_of_granted hg hnot
  obtain ⟨current, hc, hc'⟩ := subscriptions_commit_update hsub hst
  have hcurrent : current.purchasedCredits = row.purchasedCredits := by
    have hread := (hk.selected row hrow).resolve_right hnot
    unfold purchasedBalance at hbalance hread
    rw [hc] at hbalance
    exact hbalance.trans hread.symm
  have htrans' : (db.commit tx).transactions =
      ⟨id, p.userId, p.credits, .purchase, some p.referenceId, now⟩ :: db₀.transactions := by
    rw [transactions_commit, hledger, htrans]
    rfl
  refine ⟨⟨.inr ⟨hnot₀, ⟨id, now, htrans'⟩, ?_⟩, fun userId hne => subscriptions_commit_of_ne hsub hne,
    recorded_commit, visible_commit hsub hst (.inl rfl)⟩, ?_⟩
  · have hread := (hk.selected row hrow).resolve_right hnot
    rw [← hread]
    unfold purchasedBalance
    rw [hc']
    show flushed row.purchasedCredits (row.purchasedCredits + p.credits) current.purchasedCredits = _
    rw [hcurrent, flushed_current]
  · have hmem : (⟨id, p.userId, p.credits, .purchase, some p.referenceId, now⟩ : CreditTransaction) ∈
        (db.commit tx).transactions := by
      rw [htrans']
      exact List.mem_cons_self ..
    exact ⟨_, hmem, rfl⟩

end Commits

/-! ## What an exchange of a delivery does -/

section Exchanges

variable {p : CreditPurchase} {db₀ db : Database} {notes : Notes} {status : Option String}

theorem advances_refl (h : Granted p db₀ db) : Advances p db₀ db db :=
  ⟨h, fun _ _ => rfl, fun h => h, fun h => h⟩

theorem recorded_of_listed {ref : String} {userId : ℤ} {limit : ℕ}
    (h : isListed ref (db.listTransactions userId limit) = true) : db.Recorded ref := by
  obtain ⟨t, ht, href⟩ := List.any_eq_true.1 h
  have hmem := List.mem_insertionSort _ |>.1 (List.mem_of_mem_take ht)
  exact ⟨t, (List.mem_filter.1 hmem).1, (by simpa using href : _ ∧ _).2⟩

theorem known_of_read {op : BillOp} {answer : op.Ans} (hop : ∀ tx, op ≠ .commit tx)
    (hpre : (purchaseMonitor p status).pre notes op) (hg : Granted p db₀ db) (hk : Known p db₀ db notes)
    (hall : db.AllowedAnswer op answer) :
    Known p db₀ db (notes.step p.referenceId (.done op (.ok answer))) := by
  cases op with
  | commit tx => exact absurd rfl (hop tx)
  | getSubscription userId =>
    obtain rfl : userId = p.userId := hpre
    refine ⟨fun row hrow hid => ?_, hk.selected, hk.ready, hk.settled⟩
    obtain rfl : answer = some row := hrow
    exact ⟨row, hall.symm, hid⟩
  | selectSubscription userId =>
    obtain rfl : userId = p.userId := hpre
    refine ⟨hk.loaded, fun row hrow => ?_, hk.ready, hk.settled⟩
    obtain rfl : answer = some row := hrow
    obtain ⟨hsub, -⟩ := select_some (Eq.symm hall)
    by_cases hrec : db.Recorded p.referenceId
    · exact .inr hrec
    · refine .inl ?_
      rw [← (recorded_of_granted hg hrec).2.2]
      unfold purchasedBalance
      rw [hsub]
      rfl
  | listTransactions userId limit =>
    refine ⟨hk.loaded, hk.selected, hk.ready, fun h => ?_⟩
    rcases Bool.or_eq_true_iff.1 h with h | h
    · exact hk.settled h
    · obtain rfl : answer = db.listTransactions userId limit := hall
      exact recorded_of_listed h
  | _ => exact hk

theorem step_error_of_read {op : BillOp} (hop : ∀ tx, op ≠ .commit tx) {e : PyError} {took : Bool} {h} (ref : String) :
    notes.step ref ⟨op, .error e, took, h⟩ = notes := by
  cases op with
  | commit tx => exact absurd rfl (hop tx)
  | _ => rfl

theorem after_of_read {op : BillOp} (hop : ∀ tx, op ≠ .commit tx) {out : Except PyError op.Ans} {took : Bool} {h} :
    db.after ⟨op, out, took, h⟩ = db := by
  cases op with
  | commit tx => exact absurd rfl (hop tx)
  | _ => rfl

theorem advances_of_commit (hg : Granted p db₀ db) (hk : Known p db₀ db notes) {tx : Transaction}
    (htx : UpsertTx p.userId notes tx ∨ PurchaseTx p notes tx) (hv : db.violates tx = false)
    (hst : db.stale tx = false) : Advances p db₀ db (db.commit tx) := by
  rcases htx with htx | htx
  · exact (advances_of_upsert hg hk htx hv hst).1
  · exact (advances_of_purchase hg hk htx hv hst).1

theorem known_of_commit (hg : Granted p db₀ db) (hk : Known p db₀ db notes) {tx : Transaction} {h}
    (htx : UpsertTx p.userId notes tx ∨ PurchaseTx p notes tx) (hv : db.violates tx = false)
    (hst : db.stale tx = false) :
    Known p db₀ (db.commit tx) (notes.step p.referenceId ⟨.commit tx, .ok (), true, h⟩) := by
  have hk' := hk.advance (advances_of_commit hg hk htx hv hst)
  show Known p db₀ (db.commit tx)
    (if tx.ledger.isSome then { notes with settled := true } else { notes with ready := true })
  rcases htx with htx | htx
  · rw [if_neg (by rw [htx.2.1]; decide)]
    exact ⟨hk'.loaded, hk'.selected, fun _ => (advances_of_upsert hg hk htx hv hst).2, hk'.settled⟩
  · have hledger : tx.ledger.isSome = true := by
      obtain ⟨row, id, now, -, -, -, hledger⟩ := htx
      rw [hledger]
      rfl
    rw [if_pos hledger]
    exact ⟨hk'.loaded, hk'.selected, hk'.ready, fun _ => (advances_of_purchase hg hk htx hv hst).2⟩

theorem recorded_of_violates {tx : Transaction} (htx : PurchaseTx p notes tx) (hv : db.violates tx = true) :
    db.Recorded p.referenceId := by
  obtain ⟨row, id, now, -, hcredit, hsub, hledger⟩ := htx
  simp only [Database.violates, hsub, hcredit, hledger, Option.any_some, Option.any_none, RowWrite.clashes,
    Bool.or_false, Bool.false_or, List.any_eq_true, decide_eq_true_eq] at hv
  exact hv

theorem known_of_refused (hk : Known p db₀ db notes) {tx : Transaction} {e : PyError} {took : Bool} {h}
    (hrec : tx.ledger.isSome → e.cls = .integrityError → db.Recorded p.referenceId) :
    Known p db₀ db (notes.step p.referenceId ⟨.commit tx, .error e, took, h⟩) := by
  show Known p db₀ db (if tx.ledger.isSome ∧ e.cls = .integrityError then { notes with settled := true } else notes)
  split_ifs with hnote
  · exact ⟨hk.loaded, hk.selected, hk.ready, fun _ => hrec hnote.1 hnote.2⟩
  · exact hk

/-- **An exchange** of a delivery grants at most once, and keeps its notes true. -/
theorem exchange_spec {op : BillOp} {out : Except PyError op.Ans} {took : Bool} {h}
    (hpre : (purchaseMonitor p status).pre notes op) (hg : Granted p db₀ db) (hk : Known p db₀ db notes)
    (hall : db.Allowed ⟨op, out, took, h⟩) :
    Advances p db₀ db (db.after ⟨op, out, took, h⟩) ∧
      Known p db₀ (db.after ⟨op, out, took, h⟩) (notes.step p.referenceId ⟨op, out, took, h⟩) := by
  by_cases hop : ∃ tx, op = .commit tx
  · obtain ⟨tx, rfl⟩ := hop
    obtain ⟨-, htx⟩ := hpre
    rcases out with e | a
    · obtain ⟨htook, hintegrity⟩ := hall
      have hrec : tx.ledger.isSome → e.cls = .integrityError → db.Recorded p.referenceId := by
        intro hledger he
        rcases htx with htx | htx
        · rw [htx.2.1] at hledger
          cases hledger
        · exact recorded_of_violates htx (hintegrity he).1
      cases took with
      | false => exact ⟨advances_refl hg, known_of_refused hk hrec⟩
      | true =>
        obtain ⟨hv, hst⟩ := htook rfl
        have hadv := advances_of_commit hg hk htx hv hst
        exact ⟨hadv, (known_of_refused hk hrec).advance hadv⟩
    · obtain rfl : took = true := h a rfl
      obtain ⟨hv, hst⟩ : db.violates tx = false ∧ db.stale tx = false := hall
      exact ⟨advances_of_commit hg hk htx hv hst, known_of_commit hg hk htx hv hst⟩
  · have hread : ∀ tx, op ≠ .commit tx := fun tx heq => hop ⟨tx, heq⟩
    rw [after_of_read hread]
    refine ⟨advances_refl hg, ?_⟩
    rcases out with e | a
    · rw [step_error_of_read hread]
      exact hk
    · obtain rfl : took = true := h a rfl
      exact known_of_read hread hpre hg hk hall

/-- What a delivery relies on, the tables answer. -/
theorem rely_of_allowed {ev : Event BillSig} (hpre : (purchaseMonitor p status).pre notes ev.op)
    (hk : Known p db₀ db notes) (hall : db.Allowed ev) : (purchaseMonitor p status).rely notes ev := by
  obtain ⟨op, out, took, h⟩ := ev
  rcases out with e | a
  · cases op with
    | commit tx => exact trivial
    | _ => exact hall
  · cases op with
    | selectSubscription userId =>
      obtain rfl : userId = p.userId := hpre
      intro hnone
      by_contra hready
      have hvisible := hk.ready (by simpa using hready)
      exact select_isSome_of_visible hvisible (by rw [← hnone]; exact Eq.symm hall)
    | _ => exact trivial

end Exchanges

/-! ## A delivery as a thread -/

section Threads

variable {prices : StripePrices} {s : CheckoutSession} {p : CreditPurchase} {status : Option String}

theorem purchase_some (h : s.purchase = some p) : s.id = some p.referenceId ∧ p.referenceId ≠ "" ∧
    s.metadata.userId = some p.userId ∧ purchasedUnits s.metadata = p.credits ∧ 1 ≤ p.credits ∧ p.credits ≤ 100000 := by
  unfold CheckoutSession.purchase at h
  split at h
  · rename_i userId ref huser href
    split_ifs at h with hrange
    cases h
    obtain ⟨hid, hne⟩ := Option.filter_eq_some_iff.1 href
    exact ⟨hid, by simpa using hne, huser, rfl, hrange⟩
  · cases h

theorem handleCheckoutCompleted_paid (hkind : s.metadata.kind = some "credit_purchase") (h : s.purchase = some p)
    (hpaid : paid status) : handleCheckoutCompleted prices (s.withStatus status) =
      grantPurchasedCredits p.userId p.credits (some p.referenceId) := by
  obtain ⟨hid, -, huser, hunits, hlow, -⟩ := purchase_some h
  have hpos : p.credits ≠ 0 := by omega
  have hunpaid : ¬ status = some "unpaid" := hpaid
  simp [handleCheckoutCompleted, CheckoutSession.withStatus, hunpaid, hkind, handleCreditPurchase, huser, hunits, hpos,
    hid]

theorem delivery_spec (hkind : s.metadata.kind = some "credit_purchase") (h : s.purchase = some p) :
    wp (purchaseMonitor p status) (thread (handleStripeWebhook prices (s.withStatus status))) (fun _ _ => True) {} := by
  obtain ⟨-, hne, -, -, hlow, hhigh⟩ := purchase_some h
  refine wp_thread (wp_mono (fun _ _ _ => trivial) (?_ : wpe (purchaseMonitor p status)
    (handleStripeWebhook prices (s.withStatus status)) (fun _ _ => True) (fun _ _ => True) {}))
  unfold handleStripeWebhook
  rw [wpe_bind]
  have hrespond : ∀ notes : Notes, (paid status → notes.settled = true) →
      wpe (purchaseMonitor p status) (Billing.call (.respond 200)) (fun _ _ => True) (fun _ _ => True) notes :=
    fun notes hn => wpe_ask.2 ⟨hn, fun _ _ => trivial, fun _ _ _ _ => trivial⟩
  by_cases hpaid : paid status
  · rw [handleCheckoutCompleted_paid hkind h hpaid]
    exact wpe_mono (delivery_grant hpaid ⟨hlow, hhigh⟩ hne) (fun _ notes hsettled => hrespond notes fun _ => hsettled)
      fun _ _ _ => trivial
  · have hhandle : handleCheckoutCompleted prices (s.withStatus status) = pure () := by
      have hunpaid : status = some "unpaid" := by
        by_contra hn
        exact hpaid hn
      simp [handleCheckoutCompleted, CheckoutSession.withStatus, hunpaid]
    rw [hhandle, wpe_pure]
    exact hrespond _ fun h => absurd h hpaid

/-- A session that grants nothing is answered, and no more. -/
theorem delivery_idle (hkind : s.metadata.kind = some "credit_purchase") (h : s.purchase = none) :
    (thread (handleStripeWebhook prices (s.withStatus status))).AllOps fun op : BillOp => op = .respond 200 := by
  have hhandle : handleCheckoutCompleted prices (s.withStatus status) = pure () := by
    have hkind' : (s.withStatus status).metadata.kind = some "credit_purchase" := hkind
    unfold handleCheckoutCompleted
    split_ifs
    · rfl
    · unfold handleCreditPurchase
      split
      · rfl
      · rename_i userId huser
        split_ifs with hzero
        · rfl
        · unfold grantPurchasedCredits
          split
          · rfl
          · rename_i ref href
            split_ifs with hrange
            · rfl
            · have hid : truthy s.id = some ref := href
              have hu : s.metadata.userId = some userId := huser
              have hunits : 1 ≤ purchasedUnits s.metadata ∧ purchasedUnits s.metadata ≤ 100000 := by
                have hr : ¬ (purchasedUnits s.metadata < 1 ∨ 100000 < purchasedUnits s.metadata) := hrange
                omega
              simp [CheckoutSession.purchase, hid, hu, hunits] at h
  have hall : (handleStripeWebhook prices (s.withStatus status)).Only fun op : BillOp => op = .respond 200 := by
    unfold handleStripeWebhook
    rw [hhandle]
    exact only_bind only_pure fun _ => only_ask rfl
  exact allOps_bind (f := fun _ => .ret ()) (fun _ => trivial) hall

end Threads

/-! ## A round -/

section Round

variable {prices : StripePrices} {s : CheckoutSession} {p : CreditPurchase} {db₀ : Database}

/-- What a round has done to the tables so far. -/
structure RoundInv (p : CreditPurchase) (db₀ : Database) (w : PurchaseWorld) : Prop where
  granted : Granted p db₀ w.db
  others : ∀ userId, userId ≠ p.userId → w.db.subscriptions userId = db₀.subscriptions userId
  answered : w.answered = true → w.db.Recorded p.referenceId
  started : w.db.Recorded p.referenceId → db₀.Recorded p.referenceId ∨ w.started = true

/-- A delivery of the round: its program keeps to its monitor, its notes are true, and a paid one is on record. -/
structure Delivering (p : CreditPurchase) (db₀ : Database) (w : PurchaseWorld) (i : ℕ) (status : Option String)
    (q : Proc BillSig Unit) : Prop where
  program : wp (purchaseMonitor p status) q (fun _ _ => True) (w.notes i)
  known : Known p db₀ w.db (w.notes i)
  started : paid status → w.started = true

theorem notes_apply (h : s.purchase = some p) {w : PurchaseWorld} {i : ℕ} {status : Option String}
    {ev : Event BillSig} : PurchaseWorld.notes ((purchaseSystem prices s).apply w i status ev) i =
      (w.notes i).step p.referenceId ev := by
  have hid : s.id.getD "" = p.referenceId := by
    rw [(purchase_some h).1]
    rfl
  rw [← hid]
  exact Function.update_self ..

theorem recorded_started {w : PurchaseWorld} {i : ℕ} {status : Option String} {op : BillOp}
    {out : Except PyError op.Ans} {took : Bool} {hok} (hI : RoundInv p db₀ w)
    (hpre : (purchaseMonitor p status).pre (w.notes i) op) (hstarted : paid status → w.started = true)
    (hrec : (w.db.after ⟨op, out, took, hok⟩).Recorded p.referenceId) :
    db₀.Recorded p.referenceId ∨ w.started = true := by
  by_cases hop : ∃ tx, op = .commit tx
  · obtain ⟨tx, rfl⟩ := hop
    exact .inr (hstarted hpre.1)
  · rw [after_of_read fun tx heq => hop ⟨tx, heq⟩] at hrec
    exact hI.started hrec

theorem preserved_round (hkind : s.metadata.kind = some "credit_purchase") (h : s.purchase = some p) :
    (purchaseSystem prices s).Preserved (RoundInv p db₀) (Delivering p db₀) (fun _ _ _ _ => True) where
  start_world := by
    rintro w w' i status q hI ⟨-, rfl⟩
    exact ⟨hI.granted, hI.others, hI.answered, fun hrec => (hI.started hrec).imp_right fun hst => by
      show (PurchaseWorld.started w || _) = true
      rw [hst, Bool.true_or]⟩
  start_thread := by
    rintro w w' i status q - ⟨rfl, rfl⟩
    have hnotes : Function.update (PurchaseWorld.notes w) i {} i = {} := Function.update_self ..
    refine ⟨?_, ?_, fun hpaid => ?_⟩
    · simp only [hnotes]
      exact delivery_spec hkind h
    · simp only [hnotes]
      exact ⟨fun _ h => (by cases h), fun _ h => (by cases h), fun h => (by cases h), fun h => (by cases h)⟩
    · simp [hpaid]
  start_other := by
    rintro w w' i status q - ⟨-, rfl⟩ j status' q' hji hT
    have hnotes : Function.update (PurchaseWorld.notes w) i {} j = PurchaseWorld.notes w j := Function.update_of_ne hji ..
    refine ⟨?_, ?_, fun hpaid => ?_⟩
    · simp only [hnotes]
      exact hT.program
    · simp only [hnotes]
      exact hT.known
    · simp [hT.started hpaid]
  act_world := by
    rintro c i status op k out took hok hI hT hall -
    obtain ⟨hadv, hknown⟩ := exchange_spec hT.program.1 hI.granted hT.known hall
    refine ⟨hadv.granted, fun userId hne => (hadv.others userId hne).trans (hI.others userId hne), fun hans => ?_,
      fun hrec => ?_⟩
    · rcases Bool.or_eq_true_iff.1 hans with hans | hans
      · exact hadv.recorded (hI.answered hans)
      · obtain ⟨hpaid, hans⟩ : paid status ∧ answers ⟨op, out, took, hok⟩ = true := by simpa using hans
        refine hadv.recorded (hT.known.settled ?_)
        cases op with
        | respond code => exact hT.program.1 hpaid
        | _ => cases hans
    · exact recorded_started (w := c.world) hI hT.program.1 hT.started hrec
  act_thread := by
    rintro c i status op k out took hok hI hT hall -
    obtain ⟨hadv, hknown⟩ := exchange_spec hT.program.1 hI.granted hT.known hall
    have hnotes : PurchaseWorld.notes ((purchaseSystem prices s).apply c.world i status ⟨op, out, took, hok⟩) i =
        (PurchaseWorld.notes c.world i).step p.referenceId ⟨op, out, took, hok⟩ := notes_apply h
    refine ⟨?_, ?_, hT.started⟩
    · rw [hnotes]
      exact hT.program.2 out took hok (rely_of_allowed hT.program.1 hT.known hall)
    · rw [hnotes]
      exact hknown
  act_other := by
    rintro c i status op k out took hok hI hT hall - j status' q hji - hT'
    obtain ⟨hadv, hknown⟩ := exchange_spec hT.program.1 hI.granted hT.known hall
    have hnotes : PurchaseWorld.notes ((purchaseSystem prices s).apply c.world i status ⟨op, out, took, hok⟩) j =
        PurchaseWorld.notes c.world j := Function.update_of_ne hji ..
    refine ⟨?_, ?_, hT'.started⟩
    · rw [hnotes]
      exact hT'.program
    · rw [hnotes]
      exact hT'.known.advance hadv

end Round

/-! ## What a round leaves -/

section Effect

variable {prices : StripePrices} {s : CheckoutSession} {db db' : Database}

/-- The start of a round: no delivery yet. -/
def roundStart (prices : StripePrices) (s : CheckoutSession) (db : Database) : (purchaseSystem prices s).Config :=
  ⟨{ db := db }, fun _ => none⟩

def roundEnd (prices : StripePrices) (s : CheckoutSession) (db : Database)
    (tr : List ((purchaseSystem prices s).Label × (purchaseSystem prices s).Config)) : PurchaseWorld :=
  (lastConfig (roundStart prices s db) tr).world

structure LedgerOk (db : Database) : Prop where
  unique : (db.transactions.filterMap (·.referenceId)).Nodup
  purchases : ∀ t ∈ db.transactions, t.referenceId ≠ none → t.transactionType = .purchase

/-- The credits of a user among some purchases. -/
def creditsOf (userId : ℤ) (ps : List CreditPurchase) : ℤ := ((ps.filter (·.userId = userId)).map (·.credits)).sum

/-- What a sequence of deliveries has granted: each purchase once, none that was recorded before, and each of a paid
session. -/
structure Grants (sessions : List CheckoutSession) (ps : List CreditPurchase) (db db' : Database) : Prop where
  source : ∀ p ∈ ps, ∃ s ∈ sessions, s.purchase = some p
  fresh : ∀ p ∈ ps, ¬ db.Recorded p.referenceId
  distinct : (ps.map (·.referenceId)).Nodup
  balance : ∀ userId, purchasedBalance userId db' = purchasedBalance userId db + creditsOf userId ps
  recorded : ∀ ref, db'.Recorded ref ↔ db.Recorded ref ∨ ref ∈ ps.map (·.referenceId)
  ledger : LedgerOk db → LedgerOk db'

theorem grants_nothing (htrans : db'.transactions = db.transactions)
    (hbalance : ∀ userId, purchasedBalance userId db' = purchasedBalance userId db) : Grants [] [] db db' where
  source p h := by cases h
  fresh p h := by cases h
  distinct := List.nodup_nil
  balance userId := by simp [hbalance, creditsOf]
  recorded ref := by simp [Database.Recorded, htrans]
  ledger h := ⟨htrans ▸ h.unique, fun t ht => h.purchases t (htrans ▸ ht)⟩

theorem grants_one {p : CreditPurchase} {id : String} {now : Instant} (hp : s.purchase = some p)
    (hfresh : ¬ db.Recorded p.referenceId)
    (htrans : db'.transactions = ⟨id, p.userId, p.credits, .purchase, some p.referenceId, now⟩ :: db.transactions)
    (hbalance : purchasedBalance p.userId db' = purchasedBalance p.userId db + p.credits)
    (hothers : ∀ userId, userId ≠ p.userId → purchasedBalance userId db' = purchasedBalance userId db) :
    Grants [s] [p] db db' where
  source p' h := by
    obtain rfl := List.mem_singleton.1 h
    exact ⟨s, List.mem_singleton.2 rfl, hp⟩
  fresh p' h := by
    obtain rfl := List.mem_singleton.1 h
    exact hfresh
  distinct := List.nodup_singleton _
  balance userId := by
    by_cases hu : p.userId = userId
    · subst hu
      simp [hbalance, creditsOf]
    · simp [hothers userId (Ne.symm hu), creditsOf, hu]
  recorded ref := by
    simp only [Database.Recorded, htrans, List.mem_cons, exists_eq_or_imp, Option.some.injEq, List.map_cons,
      List.map_nil, List.not_mem_nil, or_false]
    rw [or_comm, eq_comm]
  ledger h := by
    refine ⟨?_, fun t ht href => ?_⟩
    · have hmap : db'.transactions.filterMap (·.referenceId) =
          p.referenceId :: db.transactions.filterMap (·.referenceId) := by
        rw [htrans]
        rfl
      rw [hmap, List.nodup_cons]
      refine ⟨fun hmem => ?_, h.unique⟩
      obtain ⟨t, ht, href⟩ := List.mem_filterMap.1 hmem
      exact hfresh ⟨t, ht, href⟩
    · rw [htrans] at ht
      rcases List.mem_cons.1 ht with rfl | ht
      · rfl
      · exact h.purchases t ht href

theorem creditsOf_append (userId : ℤ) (ps qs : List CreditPurchase) :
    creditsOf userId (ps ++ qs) = creditsOf userId ps + creditsOf userId qs := by
  simp [creditsOf]

theorem grants_append {ss ss' : List CheckoutSession} {ps qs : List CreditPurchase} {mid : Database}
    (h : Grants ss ps db mid) (h' : Grants ss' qs mid db') : Grants (ss ++ ss') (ps ++ qs) db db' where
  source p hp := by
    rcases List.mem_append.1 hp with hp | hp
    · obtain ⟨s, hs, hsp⟩ := h.source p hp
      exact ⟨s, List.mem_append_left _ hs, hsp⟩
    · obtain ⟨s, hs, hsp⟩ := h'.source p hp
      exact ⟨s, List.mem_append_right _ hs, hsp⟩
  fresh p hp := by
    rcases List.mem_append.1 hp with hp | hp
    · exact h.fresh p hp
    · exact fun hrec => h'.fresh p hp ((h.recorded _).2 (.inl hrec))
  distinct := by
    rw [List.map_append]
    refine List.nodup_append.2 ⟨h.distinct, h'.distinct, ?_⟩
    rintro ref href ref' href' rfl
    obtain ⟨p, hp, rfl⟩ := List.mem_map.1 href'
    exact h'.fresh p hp ((h.recorded _).2 (.inr href))
  balance userId := by
    rw [h'.balance, h.balance, creditsOf_append]
    omega
  recorded ref := by
    rw [h'.recorded, h.recorded, List.map_append, List.mem_append, or_assoc]
  ledger hl := h'.ledger (h.ledger hl)

theorem purchasedBalance_congr {userId : ℤ} (h : db'.subscriptions userId = db.subscriptions userId) :
    purchasedBalance userId db' = purchasedBalance userId db := by
  unfold purchasedBalance
  rw [h]

theorem along_true {tr : List ((purchaseSystem prices s).Label × (purchaseSystem prices s).Config)}
    (hs : (purchaseSystem prices s).Steps (roundStart prices s db) tr) :
    Along (ActOnly fun _ _ _ _ => True) (roundStart prices s db) tr :=
  along_mono (fun _ l _ _ => by cases l <;> trivial) hs

/-- The deliveries of a session that grants nothing leave the tables alone. -/
theorem roundEnd_idle (hkind : s.metadata.kind = some "credit_purchase") (h : s.purchase = none)
    {tr : List ((purchaseSystem prices s).Label × (purchaseSystem prices s).Config)}
    (hs : (purchaseSystem prices s).Steps (roundStart prices s db) tr) : (roundEnd prices s db tr).db = db := by
  have hpreserved : (purchaseSystem prices s).Preserved (fun w => PurchaseWorld.db w = db)
      (fun _ _ _ q => q.AllOps fun op : BillOp => op = .respond 200) (fun _ _ _ _ => True) := by
    constructor
    case start_world =>
      rintro w w' i status q hI ⟨-, rfl⟩
      exact hI
    case start_thread =>
      rintro w w' i status q - ⟨rfl, -⟩
      exact delivery_idle hkind h
    case start_other =>
      rintro w w' i status q - - j status' q' - hT
      exact hT
    case act_world =>
      rintro c i status op k out took hok hI ⟨hop, -⟩ - -
      obtain rfl : op = .respond 200 := hop
      exact hI
    case act_thread =>
      rintro c i status op k out took hok - ⟨-, hk⟩ - -
      exact hk out
    case act_other =>
      rintro c i status op k out took hok - - - - j status' q - - hT
      exact hT
  have hinv := last_of_step (fun c l c' hI hst hl => inv_step hpreserved hI hst hl)
    ⟨rfl, fun i status q hi => (by cases hi)⟩ hs (along_true hs)
  exact hinv.1

/-- **A round** grants the purchase of its session at most once, and only if a paid delivery was started; where one was
answered, the purchase is on the ledger. -/
theorem round_spec (hkind : s.metadata.kind = some "credit_purchase")
    {tr : List ((purchaseSystem prices s).Label × (purchaseSystem prices s).Config)}
    (hs : (purchaseSystem prices s).Steps (roundStart prices s db) tr) :
    (∃ ps, Grants (if (roundEnd prices s db tr).started then [s] else []) ps db (roundEnd prices s db tr).db) ∧
      ((roundEnd prices s db tr).answered = true → ∀ p, s.purchase = some p →
        (roundEnd prices s db tr).db.Recorded p.referenceId) := by
  rcases hp : s.purchase with _ | p
  · refine ⟨⟨[], ?_⟩, fun _ p h => (by cases h)⟩
    have hnothing : Grants [] [] db (roundEnd prices s db tr).db := by
      rw [roundEnd_idle hkind hp hs]
      exact grants_nothing rfl fun _ => rfl
    exact ⟨fun p h => (by cases h), hnothing.fresh, hnothing.distinct, hnothing.balance, hnothing.recorded,
      hnothing.ledger⟩
  · have hstart : (purchaseSystem prices s).Inv (RoundInv p db) (Delivering p db) (roundStart prices s db) :=
      ⟨⟨.inl ⟨rfl, rfl⟩, fun _ _ => rfl, fun h => (by cases h), fun h => .inl h⟩, fun i status q hi => (by cases hi)⟩
    have hinv := (last_of_step (fun c l c' hI hst hl => inv_step (preserved_round hkind hp) hI hst hl) hstart hs
      (along_true hs)).1
    replace hinv : RoundInv p db (roundEnd prices s db tr) := hinv
    refine ⟨?_, fun hans p' h => ?_⟩
    · rcases hinv.granted with ⟨htrans, hbalance⟩ | ⟨hfresh, ⟨id, now, htrans⟩, hbalance⟩
      · have hnothing := grants_nothing htrans fun userId => by
          by_cases hu : userId = p.userId
          · rw [hu]
            exact hbalance
          · exact purchasedBalance_congr (hinv.others userId hu)
        exact ⟨[], ⟨fun p h => (by cases h), hnothing.fresh, hnothing.distinct, hnothing.balance, hnothing.recorded,
          hnothing.ledger⟩⟩
      · have hmem : (⟨id, p.userId, p.credits, .purchase, some p.referenceId, now⟩ : CreditTransaction) ∈
            (roundEnd prices s db tr).db.transactions := by
          rw [htrans]
          exact List.mem_cons_self ..
        have hstarted := (hinv.started ⟨_, hmem, rfl⟩).resolve_left hfresh
        rw [if_pos hstarted]
        exact ⟨[p], grants_one hp hfresh htrans hbalance fun userId hu =>
          purchasedBalance_congr (hinv.others userId hu)⟩
    · cases h
      exact hinv.answered hans

end Effect

/-! ## Sequences of rounds -/

section Sequences

variable {prices : StripePrices}

/-- A round of deliveries of a session: was a paid one started, and was one answered with a 200. -/
structure PurchaseRound where
  session : CheckoutSession
  started : Bool
  answered : Bool

/-- Rounds follow one another; what a round leaves unfinished stays so. -/
inductive Rounds (prices : StripePrices) : Database → List PurchaseRound → Database → Prop
  | nil (db : Database) : Rounds prices db [] db
  | cons {s : CheckoutSession} {db db' : Database} {rounds : List PurchaseRound}
      (tr : List ((purchaseSystem prices s).Label × (purchaseSystem prices s).Config))
      (round : (purchaseSystem prices s).Steps (roundStart prices s db) tr)
      (rest : Rounds prices (roundEnd prices s db tr).db rounds db') :
      Rounds prices db (⟨s, (roundEnd prices s db tr).started, (roundEnd prices s db tr).answered⟩ :: rounds) db'

/-- The sessions with a paid delivery. -/
def deliveredSessions (rounds : List PurchaseRound) : List CheckoutSession :=
  (rounds.filter (·.started)).map (·.session)

/-- The purchases of the sessions with a paid delivery, each once. -/
def deliveredPurchases (rounds : List PurchaseRound) : List CreditPurchase :=
  ((deliveredSessions rounds).filterMap (·.purchase)).dedup

instance (db : Database) (ref : String) : Decidable (db.Recorded ref) :=
  inferInstanceAs (Decidable (∃ t ∈ db.transactions, t.referenceId = some ref))

theorem rounds_spec {db db' : Database} {rounds : List PurchaseRound} (h : Rounds prices db rounds db')
    (hkind : ∀ r ∈ rounds, r.session.metadata.kind = some "credit_purchase") :
    ∃ ps, Grants (deliveredSessions rounds) ps db db' ∧
      ∀ r ∈ rounds, r.answered = true → ∀ p, r.session.purchase = some p → db'.Recorded p.referenceId := by
  induction h with
  | nil db => exact ⟨[], grants_nothing rfl fun _ => rfl, fun r hr => (by cases hr)⟩
  | @cons s db db' rounds tr round rest ih =>
    obtain ⟨ps, hps, hans⟩ := ih fun r hr => hkind r (List.mem_cons_of_mem _ hr)
    obtain ⟨⟨qs, hqs⟩, hanswered⟩ := round_spec (hkind _ List.mem_cons_self) round
    have hsessions : deliveredSessions
        (⟨s, (roundEnd prices s db tr).started, (roundEnd prices s db tr).answered⟩ :: rounds) =
          (if (roundEnd prices s db tr).started then [s] else []) ++ deliveredSessions rounds := by
      unfold deliveredSessions
      rw [List.filter_cons]
      split_ifs <;> rfl
    refine ⟨qs ++ ps, ?_, fun r hr hra p hp => ?_⟩
    · rw [hsessions]
      exact grants_append hqs hps
    · rcases List.mem_cons.1 hr with rfl | hr
      · exact (hps.recorded _).2 (.inl (hanswered hra p hp))
      · exact hans r hr hra p hp

theorem countP_recorded {db : Database} {ref : String} (h : LedgerOk db) (hrec : db.Recorded ref) :
    db.transactions.countP (fun t => t.transactionType = .purchase ∧ t.referenceId = some ref) = 1 := by
  have hcongr : db.transactions.countP (fun t => t.transactionType = .purchase ∧ t.referenceId = some ref) =
      db.transactions.countP (fun t => t.referenceId == some ref) := by
    refine List.countP_congr fun t ht => ?_
    simp only [decide_eq_true_eq, beq_iff_eq, and_iff_right_iff_imp]
    intro href
    exact h.purchases t ht (by rw [href]; exact Option.some_ne_none _)
  obtain ⟨t, ht, href⟩ := hrec
  rw [hcongr, ← List.count_filterMap]
  exact List.count_eq_one_of_mem h.unique (List.mem_filterMap.2 ⟨t, ht, href⟩)

theorem creditsOf_perm {userId : ℤ} {ps qs : List CreditPurchase} (h : ps.Perm qs) :
    creditsOf userId ps = creditsOf userId qs :=
  List.Perm.sum_eq ((h.filter _).map _)

/-- **Credit purchases are exact**: over any sequence of deliveries, duplicates and overlapping ones among them, a
user's purchased credits grow by each paid session once, and the ledger has one purchase row for it. -/
theorem purchases_exact {db db' : Database} {rounds : List PurchaseRound} (h : Rounds prices db rounds db')
    (hkind : ∀ r ∈ rounds, r.session.metadata.kind = some "credit_purchase")
    (hsame : ∀ r ∈ rounds, ∀ r' ∈ rounds, r.session.id = r'.session.id → r.session.purchase = r'.session.purchase)
    (hredelivered : ∀ r ∈ rounds, r.started = true → ∃ r' ∈ rounds, r'.answered = true ∧ r'.session.id = r.session.id)
    (hledger : LedgerOk db) :
    (∀ userId, purchasedBalance userId db' = purchasedBalance userId db +
        creditsOf userId ((deliveredPurchases rounds).filter fun p => ¬ db.Recorded p.referenceId)) ∧
      ∀ p ∈ deliveredPurchases rounds,
        db'.transactions.countP (fun t => t.transactionType = .purchase ∧ t.referenceId = some p.referenceId) = 1 := by
  obtain ⟨ps, hps, hans⟩ := rounds_spec h hkind
  have hround : ∀ s ∈ deliveredSessions rounds, ∃ r ∈ rounds, r.started = true ∧ r.session = s := by
    intro s hs
    obtain ⟨r, hr, rfl⟩ := List.mem_map.1 hs
    exact ⟨r, (List.mem_filter.1 hr).1, (List.mem_filter.1 hr).2, rfl⟩
  have hdelivered : ∀ p, p ∈ deliveredPurchases rounds ↔ ∃ s ∈ deliveredSessions rounds, s.purchase = some p := by
    intro p
    rw [deliveredPurchases, List.mem_dedup, List.mem_filterMap]
  -- what was delivered is on the ledger in the end
  have hrecorded : ∀ p ∈ deliveredPurchases rounds, db'.Recorded p.referenceId := by
    intro p hp
    obtain ⟨s, hs, hsp⟩ := (hdelivered p).1 hp
    obtain ⟨r, hr, hstarted, rfl⟩ := hround s hs
    obtain ⟨r', hr', hanswered, hid⟩ := hredelivered r hr hstarted
    exact hans r' hr' hanswered p ((hsame r' hr' r hr hid).trans hsp)
  have hperm : ((deliveredPurchases rounds).filter fun p => ¬ db.Recorded p.referenceId).Perm ps := by
    have hnodup : (deliveredPurchases rounds).Nodup := List.nodup_dedup _
    refine (List.perm_ext_iff_of_nodup (hnodup.filter _) (List.Nodup.of_map _ hps.distinct)).2 fun p => ?_
    rw [List.mem_filter, decide_eq_true_eq, hdelivered]
    constructor
    · rintro ⟨⟨s, hs, hsp⟩, hnot⟩
      have hmem : p.referenceId ∈ ps.map (·.referenceId) :=
        ((hps.recorded _).1 (hrecorded p ((hdelivered p).2 ⟨s, hs, hsp⟩))).resolve_left hnot
      obtain ⟨p', hp', href⟩ := List.mem_map.1 hmem
      obtain ⟨s', hs', hsp'⟩ := hps.source p' hp'
      obtain ⟨r, hr, -, rfl⟩ := hround s hs
      obtain ⟨r', hr', -, rfl⟩ := hround s' hs'
      have hid : r'.session.id = r.session.id := by
        rw [(purchase_some hsp').1, (purchase_some hsp).1, href]
      have hpp : some p' = some p := by
        rw [← hsp', ← hsp]
        exact hsame r' hr' r hr hid
      cases hpp
      exact hp'
    · intro hp
      exact ⟨hps.source p hp, hps.fresh p hp⟩
  refine ⟨fun userId => ?_, fun p hp => countP_recorded (hps.ledger hledger) (hrecorded p hp)⟩
  rw [hps.balance, creditsOf_perm hperm]

/-- Prices as configured. -/
def listPrices : StripePrices := ⟨"price_pro_monthly", "price_pro_plus_monthly", "price_enterprise_monthly"⟩

def tenCredits : CheckoutSession where
  id := some "cs_1"
  paymentStatus := some "paid"
  customer := none
  subscription := none
  metadata := ⟨some "credit_purchase", some 7, some "10", none⟩

theorem tenCredits_purchase : tenCredits.purchase = some ⟨"cs_1", 7, 10⟩ := by
  have hunits : purchasedUnits tenCredits.metadata = 10 := by
    unfold purchasedUnits
    exact congrArg (fun r : Except PyError ℤ => r.toOption.getD 0) (pyInt_repr 10)
  simp only [CheckoutSession.purchase, hunits]
  rfl

def emptyWallet : Database where
  subscriptions := Function.update (fun _ => none) 7 (some { userId := some 7, tier := .pro })
  credits := fun _ _ => none
  transactions := []

def purchaseDriver : (purchaseSystem listPrices tenCredits).Driver where
  reply w := (answering 0 none).reply (PurchaseWorld.db w)
  check w _ _ ev := @decide _ (Database.decidableAllowed (PurchaseWorld.db w) ev)
  sound {w _ _ ev} h := @of_decide_eq_true _ (Database.decidableAllowed (PurchaseWorld.db w) ev) h

/-- A paid delivery. -/
def paidStarter (i : ℕ) : (purchaseSystem listPrices tenCredits).Starter i where
  start w := some (some "paid", thread (do grantPurchasedCredits 7 10 (some "cs_1"); call (.respond 200)),
    { w with notes := Function.update (PurchaseWorld.notes w) i {}, started := PurchaseWorld.started w || paid (some "paid") })
  sound h := by
    cases h
    refine ⟨?_, rfl⟩
    unfold handleStripeWebhook
    rw [handleCheckoutCompleted_paid rfl tenCredits_purchase (by decide)]

/-- Two deliveries of the session, each reading before the other commits. -/
def overlapping :
    List ((purchaseSystem listPrices tenCredits).Label × (purchaseSystem listPrices tenCredits).Config) :=
  Sys.drive purchaseDriver (roundStart listPrices tenCredits emptyWallet)
    [.start 0 (paidStarter 0), .start 1 (paidStarter 1), .go 0, .go 0, .go 0, .go 0, .go 1, .go 1, .go 1, .go 1, .go 0,
      .fail 1 integrityError false, .go 0, .go 1]

theorem purchases_exact_overlapping :
    let db' := (roundEnd listPrices tenCredits emptyWallet overlapping).db
    purchasedBalance 7 db' = 10 ∧
      db'.transactions.countP (fun t => t.transactionType = .purchase ∧ t.referenceId = some "cs_1") = 1 := by
  have hround : Rounds listPrices emptyWallet [⟨tenCredits, true, true⟩]
      (roundEnd listPrices tenCredits emptyWallet overlapping).db := by
    have hstarted : (roundEnd listPrices tenCredits emptyWallet overlapping).started = true := by decide
    have hanswered : (roundEnd listPrices tenCredits emptyWallet overlapping).answered = true := by decide
    have hcons := Rounds.cons overlapping (steps_drive _ _ _) (@Rounds.nil listPrices _)
    rw [hstarted, hanswered] at hcons
    exact hcons
  have hdelivered : deliveredPurchases [⟨tenCredits, true, true⟩] = [⟨"cs_1", 7, 10⟩] := by
    simp [deliveredPurchases, deliveredSessions, tenCredits_purchase]
  obtain ⟨hbalance, hledger⟩ := purchases_exact hround (fun r hr => by
      obtain rfl := List.mem_singleton.1 hr
      rfl)
    (fun r hr r' hr' _ => by
      obtain rfl := List.mem_singleton.1 hr
      obtain rfl := List.mem_singleton.1 hr'
      rfl)
    (fun r hr _ => ⟨r, hr, by obtain rfl := List.mem_singleton.1 hr; rfl, rfl⟩)
    ⟨List.nodup_nil, fun t ht => (by cases ht)⟩
  rw [hdelivered] at hbalance hledger
  exact ⟨hbalance 7, hledger _ (List.mem_singleton.2 rfl)⟩

end Sequences

end Transform.Billing
