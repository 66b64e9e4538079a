import Transform.Billing.Sequential

/-!
# Billing.Webhooks — the events of Stripe

A webhook delivers one event.  A checkout session that is completed, a subscription that is updated and an invoice that is
paid all end in `activateSubscription`; a canceled or deleted subscription ends in the FREE tier.  `deliver` handles one
delivery on its own, and `deliver_eq` gives the tables it leaves.
-/

namespace Transform.Billing

open Lib Conversions

/-! ## Payloads -/

section Payloads

/-- A subscription as Stripe shows it; `items` has the price of each item, where the payload names one. -/
structure StripeSubscription where
  id : Option String
  status : Option String
  customer : Option String
  userId : Option ℤ
  tier : Option String
  items : List (Option String)
  deriving DecidableEq, Repr

structure StripeInvoice where
  id : Option String
  subscription : Option String
  customer : Option String
  deriving DecidableEq, Repr

inductive WebhookEvent
  | checkoutCompleted (session : CheckoutSession)
  | checkoutAsyncSucceeded (session : CheckoutSession)
  | checkoutAsyncFailed (session : CheckoutSession)
  | invoicePaymentSucceeded (invoice : StripeInvoice)
  | invoicePaymentFailed (invoice : StripeInvoice)
  | subscriptionCreated (subscription : StripeSubscription)
  | subscriptionUpdated (subscription : StripeSubscription)
  | subscriptionDeleted (subscription : StripeSubscription)
  | other (type : String)
  deriving DecidableEq, Repr

def firstPriceId (subscription : StripeSubscription) : Option String := subscription.items.head?.join

/-- How the webhook is set up; `secretKey` is whether there is a key to retrieve a subscription with. -/
structure WebhookConfig where
  prices : StripePrices
  secretKey : Bool

end Payloads

/-! ## Handlers -/

section Handlers

variable (cfg : WebhookConfig)

def downgradeToFree (userId : ℤ) : BillM Unit := upsertSubscription userId .free none none

/-- An activation whose refusal is logged. -/
def activateOrSkip (userId : ℤ) (tierName stripeCustomerId stripeSubscriptionId priceId : Option String) : BillM Unit :=
  (activateSubscription cfg.prices userId tierName stripeCustomerId stripeSubscriptionId priceId).tryCatch fun e =>
    if e.cls = .valueError then pure () else .throw e

def handleSubscriptionUpdated (subscription : StripeSubscription) : BillM Unit :=
  match subscription.userId with
  | none => pure ()
  | some userId =>
    if subscription.status = some "canceled" then downgradeToFree userId
    else activateOrSkip cfg userId subscription.tier subscription.customer subscription.id (firstPriceId subscription)

def handleSubscriptionDeleted (subscription : StripeSubscription) : BillM Unit :=
  match subscription.userId with
  | none => pure ()
  | some userId => downgradeToFree userId

/-- The subscription of the invoice is retrieved; `retrieved` is Stripe's answer, none where the call fails. -/
def refreshAllowanceForInvoice (retrieved : Option StripeSubscription) (invoice : StripeInvoice) : BillM Unit :=
  match truthy invoice.subscription with
  | none => pure ()
  | some subscriptionId =>
    if !cfg.secretKey then pure ()
    else match retrieved with
      | none => pure ()
      | some subscription =>
        match subscription.userId with
        | none => pure ()
        | some userId =>
          activateOrSkip cfg userId subscription.tier invoice.customer (some subscriptionId) (firstPriceId subscription)

def handleEvent (retrieved : Option StripeSubscription) : WebhookEvent → BillM Unit
  | .checkoutCompleted session => handleCheckoutCompleted cfg.prices session
  | .checkoutAsyncSucceeded session => handleCheckoutCompleted cfg.prices session
  | .checkoutAsyncFailed session => handleCheckoutCompleted cfg.prices session
  | .invoicePaymentSucceeded invoice => refreshAllowanceForInvoice cfg retrieved invoice
  | .invoicePaymentFailed _ => pure ()
  | .subscriptionCreated _ => pure ()
  | .subscriptionUpdated subscription => handleSubscriptionUpdated cfg subscription
  | .subscriptionDeleted subscription => handleSubscriptionDeleted subscription
  | .other _ => pure ()

/-- An event as it is handled: when, and what Stripe answers meanwhile. -/
structure Delivery where
  now : Instant
  event : WebhookEvent
  retrieved : Option StripeSubscription := none
  deriving DecidableEq, Repr

/-- The tables after a delivery. -/
def deliver (db : Database) (d : Delivery) : Database :=
  ((handleEvent cfg d.retrieved d.event).run.exec (answering d.now none) db).2

/-- The tables after some deliveries, one after the other. -/
def deliverAll (db : Database) (ds : List Delivery) : Database := ds.foldl (deliver cfg) db

end Handlers

/-! ## The tables that an activation leaves -/

section Activated

instance (row : CreditRow) : Decidable row.Valid := inferInstanceAs (Decidable (_ ∧ _))

/-- What an activation makes of a bucket; one that is not valid is left. -/
def regranted (bucket : Option CreditRow) (grant : ℕ) : Option CreditRow :=
  match bucket with
  | none => some ⟨grant, grant⟩
  | some row =>
    if row.Valid ∧ row.allowance < grant then some ⟨grant, min (row.remaining + (grant - row.allowance)) grant⟩ else some row

namespace Database

variable (db : Database)

def setBucket (ownerId : ℤ) (periodKey : String) (bucket : Option CreditRow) : Database :=
  { db with credits := Function.update db.credits ownerId (Function.update (db.credits ownerId) periodKey bucket) }

def atTier (userId : ℤ) (tier : SubscriptionTier) (customer subscription : Option String) : Database :=
  db.setSubscription userId (upserted db userId tier customer subscription)

/-- The row of the user at a tier, and the bucket of the period at least at the tier's grant. -/
def activated (now : Instant) (userId : ℤ) (tier : SubscriptionTier) (customer subscription : Option String) : Database :=
  match (TierPolicy.forTier tier).monthlyConversionCredits with
  | none | some 0 => db.atTier userId tier customer subscription
  | some grant => (db.atTier userId tier customer subscription).setBucket userId (currentPeriodKey now)
      (regranted (db.credits userId (currentPeriodKey now)) grant)

/-- The tables after an activation, which may be refused. -/
def activation (prices : StripePrices) (now : Instant) (userId : ℤ)
    (tierName customer subscription priceId : Option String) : Database :=
  match resolveActivationTier prices tierName priceId with
  | .error _ => db
  | .ok tier => db.activated now userId tier customer subscription

/-- The row that a purchase goes to. -/
def withWallet (userId : ℤ) : Database :=
  match db.selectSubscription userId with
  | some _ => db
  | none => db.atTier userId .free none none

/-- The reference is on the ledger. -/
def recorded (referenceId : String) : Bool := db.transactions.any (·.referenceId = some referenceId)

/-- The tables after a purchase under a reference. -/
def purchased (now : Instant) (userId credits : ℤ) (referenceId : String) : Database :=
  if isListed referenceId (db.listTransactions userId 200) then db
  else match (db.withWallet userId).selectSubscription userId with
    | none => db.withWallet userId
    | some row =>
      if db.recorded referenceId then db.withWallet userId
      else ((db.withWallet userId).setSubscription userId
        { row with purchasedCredits := row.purchasedCredits + credits }).addTransaction
          ⟨"transaction", userId, credits, .purchase, some referenceId, now⟩

end Database

end Activated

section Sessions

variable {cfg : WebhookConfig} {now : Instant} {stripe : Option PlanChangeResult} {db : Database} {userId : ℤ}
  {periodKey : String}

theorem setBucket_self {bucket : Option CreditRow} (h : db.credits userId periodKey = bucket) :
    db.setBucket userId periodKey bucket = db := by
  subst h
  simp [Database.setBucket]

theorem setCredit_eq (row : CreditRow) : db.setCredit userId periodKey row = db.setBucket userId periodKey (some row) := rfl

theorem activated_of_no_grant {tier : SubscriptionTier} {customer subscription : Option String}
    (h : (TierPolicy.forTier tier).monthlyConversionCredits = none) :
    db.activated now userId tier customer subscription = db.atTier userId tier customer subscription := by
  unfold Database.activated
  rw [h]

theorem activated_of_grant {tier : SubscriptionTier} {customer subscription : Option String} {grant : ℕ}
    (h : (TierPolicy.forTier tier).monthlyConversionCredits = some grant) :
    db.activated now userId tier customer subscription =
      (db.atTier userId tier customer subscription).setBucket userId (currentPeriodKey now)
        (regranted (db.credits userId (currentPeriodKey now)) grant) := by
  have hpos := monthlyConversionCredits_pos h
  obtain ⟨n, rfl⟩ : ∃ n, grant = n + 1 := ⟨grant - 1, by omega⟩
  unfold Database.activated
  rw [h]
  rfl

theorem of_error_cls {a r : ℤ} {e : PyError} (h : Credit.of a r = .error e) : e.cls = .valueError := by
  unfold Credit.of at h
  split_ifs at h <;> cases h <;> rfl

theorem leaves_grant {tier : SubscriptionTier} {grant : ℕ}
    (htier : (TierPolicy.forTier tier).monthlyConversionCredits = some grant) :
    wpe (session now stripe) (grantPlan userId tier grant)
      (fun _ db' => db' = db.setBucket userId (currentPeriodKey now)
        (regranted (db.credits userId (currentPeriodKey now)) grant))
      (fun e db' => e.cls = .valueError ∧ db' = db.setBucket userId (currentPeriodKey now)
        (regranted (db.credits userId (currentPeriodKey now)) grant)) db := by
  unfold grantPlan
  rw [wpe_bind]
  refine session_read rfl rfl ?_
  rw [wpe_bind]
  refine session_getCredit (fun hnone => ?_) (fun row credit hrow hc => ?_) fun row err hrow he => ?_
  · unfold openBucket
    rw [wpe_bind]
    refine wpe_ofExcept (fun credit hc => ?_) fun err he => ?_
    · obtain ⟨n, hn, ha, hr⟩ := fromTier_ok hc
      have hgrant : n = grant := by
        rw [htier] at hn
        exact (Option.some.inj hn).symm
      subst hgrant
      refine session_saveCredit ?_
      rw [ha, hr, hnone]
      rfl
    · unfold Credit.fromTier at he
      rw [htier] at he
      cases he
  · obtain ⟨ha, hr⟩ := credit_of_ok hc
    have hvalid := valid_of_credit hc
    show wpe _ (raiseBucket userId (currentPeriodKey now) grant credit) _ _ _
    unfold raiseBucket
    rw [ha, hr, hrow]
    dsimp only
    by_cases hlt : row.allowance < grant
    · rw [if_pos (by omega)]
      refine session_saveCredit ?_
      rw [setCredit_eq, regranted, if_pos ⟨hvalid, hlt⟩]
    · rw [if_neg (by omega), regranted, if_neg fun h => hlt h.2]
      exact (setBucket_self hrow).symm
  · refine ⟨of_error_cls he, ?_⟩
    have hnot : ¬ row.Valid := by
      intro hvalid
      obtain ⟨credit, hc, -⟩ := credit_of_valid hvalid
      rw [hc] at he
      cases he
    rw [hrow, regranted, if_neg fun h => hnot h.1]
    exact (setBucket_self hrow).symm

theorem leaves_activate (tierName customer subscription priceId : Option String) :
    wpe (session now stripe) (activateSubscription cfg.prices userId tierName customer subscription priceId)
      (fun _ db' => db' = db.activation cfg.prices now userId tierName customer subscription priceId)
      (fun e db' => e.cls = .valueError ∧
        db' = db.activation cfg.prices now userId tierName customer subscription priceId) db := by
  unfold activateSubscription Database.activation
  rcases htier : resolveActivationTier cfg.prices tierName priceId with err | tier
  · refine ⟨?_, rfl⟩
    unfold resolveActivationTier at htier
    split at htier <;> cases htier
    rfl
  · rw [wpe_bind, wpe_ofExcept_ok, wpe_bind]
    refine session_upsert ?_
    dsimp only
    unfold Database.activated
    rcases hgrant : (TierPolicy.forTier tier).monthlyConversionCredits with _ | n
    · exact rfl
    · rcases n with _ | n
      · exact rfl
      · exact leaves_grant hgrant

theorem leaves_activateOrSkip (tierName customer subscription priceId : Option String) :
    wpe (session now stripe) (activateOrSkip cfg userId tierName customer subscription priceId)
      (fun _ db' => db' = db.activation cfg.prices now userId tierName customer subscription priceId)
      (fun _ _ => False) db := by
  unfold activateOrSkip
  rw [wpe_tryCatch]
  refine wpe_mono (leaves_activate tierName customer subscription priceId) (fun _ _ h => h) fun e db' h => ?_
  rw [if_pos h.1]
  exact h.2

theorem leaves_walletRow :
    wpe (session now stripe) (walletRow userId)
      (fun row db' => db' = db.withWallet userId ∧ row = (db.withWallet userId).selectSubscription userId)
      (fun _ _ => False) db := by
  unfold walletRow
  rw [wpe_bind]
  refine session_read rfl rfl ?_
  rcases hrow : db.selectSubscription userId with _ | row
  · have hwith : db.withWallet userId = db.atTier userId .free none none := by
      rw [Database.withWallet, hrow]
    rw [hwith]
    show wpe _ (do upsertSubscription userId .free none none; call (.selectSubscription userId)) _ _ _
    rw [wpe_bind]
    refine session_upsert ?_
    exact session_read rfl rfl ⟨rfl, rfl⟩
  · have hwith : db.withWallet userId = db := by
      rw [Database.withWallet, hrow]
    rw [hwith]
    exact ⟨rfl, hrow.symm⟩

theorem recorded_iff {referenceId : String} : db.recorded referenceId = true ↔ db.Recorded referenceId := by
  simp [Database.recorded, Database.Recorded]

theorem leaves_record {row : SubscriptionRow} {credits : ℤ} {referenceId : String}
    (hrow : db.selectSubscription userId = some row) :
    wpe (session now stripe) (recordPurchase userId credits referenceId row)
      (fun _ db' => db' = if db.recorded referenceId then db else
        (db.setSubscription userId { row with purchasedCredits := row.purchasedCredits + credits }).addTransaction
          ⟨"transaction", userId, credits, .purchase, some referenceId, now⟩)
      (fun _ _ => False) db := by
  obtain ⟨hstored, -⟩ := select_some hrow
  unfold recordPurchase
  simp only [wpe_tryCatch, wpe_bind]
  refine session_read rfl rfl ?_
  refine session_read rfl rfl ?_
  by_cases hrec : db.recorded referenceId
  · refine (wpe_ask_of (answering now stripe)).2 ?_
    have hviolates : db.violates
        { subscription := some (userId, .update row { row with purchasedCredits := row.purchasedCredits + credits })
          ledger := some ⟨"transaction", userId, credits, .purchase, some referenceId, now⟩ } = true := by
      have hany : db.transactions.any (fun t => decide (t.referenceId = some referenceId)) = true := hrec
      simp only [Database.violates, Option.any_some, hany, Bool.or_true]
    have hreply : (answering now stripe).reply db (.commit
        { subscription := some (userId, .update row { row with purchasedCredits := row.purchasedCredits + credits })
          ledger := some ⟨"transaction", userId, credits, .purchase, some referenceId, now⟩ }) =
          .error integrityError := by
      simp only [answering, hviolates, if_true]
    rw [hreply]
    show wpe _ (if integrityError.cls = .integrityError then pure () else .throw integrityError) _ _ db
    have hcls : integrityError.cls = .integrityError := rfl
    rw [if_pos hcls, if_pos hrec]
    exact rfl
  · have hnot : ¬ db.Recorded referenceId := fun h => hrec (recorded_iff.2 h)
    refine session_commit ⟨fun h => (by cases h; exact hstored), fun h => (by cases h), fun h hr => ?_⟩ ?_
    · cases h
      cases hr
      exact hnot
    · rw [if_neg hrec]
      have hcommit := @subscriptions_commit db userId
        { subscription := some (userId, .update row { row with purchasedCredits := row.purchasedCredits + credits })
          ledger := some ⟨"transaction", userId, credits, .purchase, some referenceId, now⟩ } _ rfl hstored
      simp [Database.commit, Database.addTransaction, Database.setSubscription, hstored, RowWrite.apply,
        subscription_flush_self]

theorem leaves_purchase {credits : ℤ} {referenceId : String} :
    wpe (session now stripe) (grantUnlessListed userId credits referenceId)
      (fun _ db' => db' = db.purchased now userId credits referenceId) (fun _ _ => False) db := by
  unfold grantUnlessListed Database.purchased
  rw [wpe_bind]
  refine session_read rfl rfl ?_
  by_cases hlisted : isListed referenceId (db.listTransactions userId 200)
  · rw [if_pos hlisted, if_pos hlisted]
    exact rfl
  · rw [if_neg hlisted, if_neg hlisted]
    unfold addPurchase
    rw [wpe_bind]
    refine wpe_mono leaves_walletRow (fun row db' h => ?_) fun _ _ h => h
    obtain ⟨rfl, hrow⟩ := h
    rcases hselect : (db.withWallet userId).selectSubscription userId with _ | stored
    · rw [hselect] at hrow
      subst hrow
      exact rfl
    · rw [hselect] at hrow
      subst hrow
      have hledger : (db.withWallet userId).recorded referenceId = db.recorded referenceId := by
        unfold Database.recorded Database.withWallet
        split <;> rfl
      rw [← hledger]
      exact leaves_record hselect

end Sessions

/-! ## The tables that a delivery leaves -/

section Deliveries

variable (cfg : WebhookConfig)

namespace Database

variable (db : Database)

def afterCheckout (now : Instant) (session : CheckoutSession) : Database :=
  if session.paymentStatus = some "unpaid" then db
  else match session.metadata.userId with
    | none => db
    | some userId =>
      if session.metadata.kind = some "credit_purchase" then
        match truthy session.id with
        | none => db
        | some referenceId =>
          if purchasedUnits session.metadata < 1 ∨ 100000 < purchasedUnits session.metadata then db
          else db.purchased now userId (purchasedUnits session.metadata) referenceId
      else db.activation cfg.prices now userId (some (session.metadata.tier.getD "pro")) session.customer
        session.subscription none

def afterUpdate (now : Instant) (subscription : StripeSubscription) : Database :=
  match subscription.userId with
  | none => db
  | some userId =>
    if subscription.status = some "canceled" then db.atTier userId .free none none
    else db.activation cfg.prices now userId subscription.tier subscription.customer subscription.id
      (firstPriceId subscription)

/-- The tables after the end of a subscription. -/
def afterDeletion (subscription : StripeSubscription) : Database :=
  match subscription.userId with
  | none => db
  | some userId => db.atTier userId .free none none

/-- The tables after the payment of an invoice. -/
def afterInvoice (now : Instant) (retrieved : Option StripeSubscription) (invoice : StripeInvoice) : Database :=
  match truthy invoice.subscription, retrieved with
  | some subscriptionId, some subscription =>
    match subscription.userId with
    | none => db
    | some userId =>
      if cfg.secretKey then db.activation cfg.prices now userId subscription.tier invoice.customer (some subscriptionId)
        (firstPriceId subscription)
      else db
  | _, _ => db

def delivered (d : Delivery) : Database :=
  match d.event with
  | .checkoutCompleted session | .checkoutAsyncSucceeded session | .checkoutAsyncFailed session =>
    db.afterCheckout cfg d.now session
  | .invoicePaymentSucceeded invoice => db.afterInvoice cfg d.now d.retrieved invoice
  | .subscriptionUpdated subscription => db.afterUpdate cfg d.now subscription
  | .subscriptionDeleted subscription => db.afterDeletion subscription
  | .invoicePaymentFailed _ | .subscriptionCreated _ | .other _ => db

end Database

variable {cfg} {db : Database} {now : Instant} {stripe : Option PlanChangeResult} {userId : ℤ}

theorem leaves_downgrade :
    wpe (session now stripe) (downgradeToFree userId) (fun _ db' => db' = db.atTier userId .free none none)
      (fun _ _ => False) db :=
  session_upsert rfl

theorem leaves_checkout (session' : CheckoutSession) :
    wpe (session now stripe) (handleCheckoutCompleted cfg.prices session')
      (fun _ db' => db' = db.afterCheckout cfg now session') (fun _ _ => False) db := by
  unfold handleCheckoutCompleted Database.afterCheckout
  by_cases hunpaid : session'.paymentStatus = some "unpaid"
  · rw [if_pos hunpaid, if_pos hunpaid]
    exact rfl
  rw [if_neg hunpaid, if_neg hunpaid]
  by_cases hkind : session'.metadata.kind = some "credit_purchase"
  · rw [if_pos hkind]
    unfold handleCreditPurchase
    rcases session'.metadata.userId with _ | userId
    · exact rfl
    simp only [if_pos hkind]
    by_cases hzero : purchasedUnits session'.metadata = 0
    · have hrange : purchasedUnits session'.metadata < 1 ∨ 100000 < purchasedUnits session'.metadata := .inl (by omega)
      simp only [if_pos hzero, if_pos hrange]
      rcases truthy session'.id with _ | ref
      · exact rfl
      · exact rfl
    rw [if_neg hzero]
    unfold grantPurchasedCredits
    rcases truthy session'.id with _ | ref
    · exact rfl
    · by_cases hrange : purchasedUnits session'.metadata < 1 ∨ 100000 < purchasedUnits session'.metadata
      · simp only [if_pos hrange]
        exact rfl
      · simp only [if_neg hrange]
        exact leaves_purchase
  · rw [if_neg hkind]
    unfold handleActivation
    rcases session'.metadata.userId with _ | userId
    · exact rfl
    simp only [if_neg hkind]
    exact leaves_activateOrSkip _ _ _ _

theorem leaves_update (subscription : StripeSubscription) :
    wpe (session now stripe) (handleSubscriptionUpdated cfg subscription)
      (fun _ db' => db' = db.afterUpdate cfg now subscription) (fun _ _ => False) db := by
  unfold handleSubscriptionUpdated Database.afterUpdate
  rcases subscription.userId with _ | userId
  · exact rfl
  by_cases hcanceled : subscription.status = some "canceled"
  · simp only [if_pos hcanceled]
    exact leaves_downgrade
  · simp only [if_neg hcanceled]
    exact leaves_activateOrSkip _ _ _ _

theorem leaves_deletion (subscription : StripeSubscription) :
    wpe (session now stripe) (handleSubscriptionDeleted subscription)
      (fun _ db' => db' = db.afterDeletion subscription) (fun _ _ => False) db := by
  unfold handleSubscriptionDeleted Database.afterDeletion
  rcases subscription.userId with _ | userId
  · exact rfl
  · exact leaves_downgrade

theorem leaves_invoice (retrieved : Option StripeSubscription) (invoice : StripeInvoice) :
    wpe (session now stripe) (refreshAllowanceForInvoice cfg retrieved invoice)
      (fun _ db' => db' = db.afterInvoice cfg now retrieved invoice) (fun _ _ => False) db := by
  unfold refreshAllowanceForInvoice Database.afterInvoice
  rcases truthy invoice.subscription with _ | subscriptionId
  · exact rfl
  rcases retrieved with _ | subscription
  · cases cfg.secretKey with
    | false => exact rfl
    | true => exact rfl
  dsimp only
  cases hkey : cfg.secretKey with
  | false =>
    rcases subscription.userId with _ | userId
    · exact rfl
    · exact rfl
  | true =>
    rcases subscription.userId with _ | userId
    · exact rfl
    · exact leaves_activateOrSkip _ _ _ _

/-- **A delivery** on its own leaves the tables that its event asks for. -/
theorem deliver_eq (d : Delivery) : deliver cfg db d = db.delivered cfg d := by
  have hwp : wpe (session d.now none) (handleEvent cfg d.retrieved d.event) (fun _ db' => db' = db.delivered cfg d)
      (fun _ _ => False) db := by
    obtain ⟨now, event, retrieved⟩ := d
    cases event with
    | checkoutCompleted session => exact leaves_checkout session
    | checkoutAsyncSucceeded session => exact leaves_checkout session
    | checkoutAsyncFailed session => exact leaves_checkout session
    | invoicePaymentSucceeded invoice => exact leaves_invoice retrieved invoice
    | subscriptionUpdated subscription => exact leaves_update subscription
    | subscriptionDeleted subscription => exact leaves_deletion subscription
    | invoicePaymentFailed invoice => exact rfl
    | subscriptionCreated subscription => exact rfl
    | other type => exact rfl
  exact exec_of_wpe (R := fun db' => db' = db.delivered cfg d) (wpe_mono hwp (fun _ _ h => h) fun _ _ h => h.elim)

end Deliveries

end Transform.Billing
