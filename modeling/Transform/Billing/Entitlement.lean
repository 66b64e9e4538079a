import Transform.Billing.TierRuns
import Transform.Lib.Machine

/-!
# Billing.Entitlement — what an event may raise

Tiers and balances should rise with a payment only: through an active or trialing subscription, a paid invoice, or a checkout
session that is paid or free.  `noRise_delivered_iff` says when a delivery without one of these raises nothing, and
`raises_with_payment_iff` carries it to every sequence of deliveries.
-/

namespace Transform.Billing

open Lib Conversions

/-! ## Entitled events and what may rise -/

section Events

/-- A status under which a subscription is paid for or on trial. -/
def isActiveStatus (status : Option String) : Prop := status = some "active" ∨ status = some "trialing"

instance (status : Option String) : Decidable (isActiveStatus status) := inferInstanceAs (Decidable (_ ∨ _))

/-- The session is paid, or there was nothing to pay. -/
def isPaidSession (session : CheckoutSession) : Prop :=
  session.paymentStatus = some "paid" ∨ session.paymentStatus = some "no_payment_required"

instance (session : CheckoutSession) : Decidable (isPaidSession session) := inferInstanceAs (Decidable (_ ∨ _))

/-- The event stands for a payment, or for a subscription that is active or on trial. -/
def WebhookEvent.Entitled : WebhookEvent → Prop
  | .checkoutCompleted session | .checkoutAsyncSucceeded session | .checkoutAsyncFailed session => isPaidSession session
  | .invoicePaymentSucceeded _ => True
  | .subscriptionCreated subscription | .subscriptionUpdated subscription => isActiveStatus subscription.status
  | .subscriptionDeleted _ | .invoicePaymentFailed _ | .other _ => False

instance : DecidablePred WebhookEvent.Entitled
  | .checkoutCompleted session | .checkoutAsyncSucceeded session | .checkoutAsyncFailed session =>
    inferInstanceAs (Decidable (isPaidSession session))
  | .invoicePaymentSucceeded _ => isTrue trivial
  | .subscriptionCreated subscription | .subscriptionUpdated subscription =>
    inferInstanceAs (Decidable (isActiveStatus subscription.status))
  | .subscriptionDeleted _ | .invoicePaymentFailed _ | .other _ => isFalse id

/-- The plan credits that are left in the bucket of a period. -/
def bucketBalance (userId : ℤ) (periodKey : String) (db : Database) : ℤ := (db.credits userId periodKey).elim 0 (·.remaining)

def carryoverBalance (userId : ℤ) (db : Database) : ℤ := (db.subscriptions userId).elim 0 (·.carryoverCredits)

/-- What a user holds in the second tables is at most what the user holds in the first. -/
structure NoRiseOf (userId : ℤ) (db db' : Database) : Prop where
  tier : tierRank (storedTier userId db') ≤ tierRank (storedTier userId db)
  plan : ∀ periodKey, bucketBalance userId periodKey db' ≤ bucketBalance userId periodKey db
  carryover : carryoverBalance userId db' ≤ carryoverBalance userId db
  purchased : purchasedBalance userId db' ≤ purchasedBalance userId db

/-- Nothing rises for any user. -/
def NoRise (db db' : Database) : Prop := ∀ userId, NoRiseOf userId db db'

end Events

/-! ## When a delivery raises nothing -/

section Harmless

variable (cfg : WebhookConfig) (db : Database) (now : Instant) (userId : ℤ)

def AtGrant (bucket : Option CreditRow) (grant : ℕ) : Prop :=
  match bucket with
  | none => False
  | some row => ¬ row.Valid ∨ (grant : ℤ) ≤ row.allowance

instance (bucket : Option CreditRow) (grant : ℕ) : Decidable (AtGrant bucket grant) :=
  match bucket with
  | none => isFalse id
  | some row => inferInstanceAs (Decidable (¬ row.Valid ∨ (grant : ℤ) ≤ row.allowance))

def AtTierAlready (tier : SubscriptionTier) : Prop :=
  tierRank tier ≤ tierRank (storedTier userId db) ∧
    ∀ grant, (TierPolicy.forTier tier).monthlyConversionCredits = some grant →
      AtGrant (db.credits userId (currentPeriodKey now)) grant

def ActivationHarmless (tierName priceId : Option String) : Prop :=
  ∀ tier, activationTier cfg.prices tierName priceId = some tier → AtTierAlready db now userId tier

/-- The purchase is refused, or is on the ledger already. -/
def PurchaseHarmless (session : CheckoutSession) : Prop :=
  ∀ referenceId, truthy session.id = some referenceId →
    purchasedUnits session.metadata < 1 ∨ 100000 < purchasedUnits session.metadata ∨ db.recorded referenceId = true

/-- A checkout session is skipped, or what it grants is there already. -/
def CheckoutHarmless (session : CheckoutSession) : Prop :=
  session.paymentStatus ≠ some "unpaid" → ∀ userId, session.metadata.userId = some userId →
    if session.metadata.kind = some "credit_purchase" then PurchaseHarmless db session
    else ActivationHarmless cfg db now userId (some (session.metadata.tier.getD "pro")) none

/-- An update is of a canceled subscription, or activates what is there already. -/
def UpdateHarmless (subscription : StripeSubscription) : Prop :=
  subscription.status ≠ some "canceled" → ∀ userId, subscription.userId = some userId →
    ActivationHarmless cfg db now userId subscription.tier (firstPriceId subscription)

/-- What an event without a payment asks for is there already. -/
def Harmless (d : Delivery) : Prop :=
  match d.event with
  | .checkoutCompleted session | .checkoutAsyncSucceeded session | .checkoutAsyncFailed session =>
    CheckoutHarmless cfg db d.now session
  | .subscriptionUpdated subscription => UpdateHarmless cfg db d.now subscription
  | .subscriptionDeleted _ | .invoicePaymentSucceeded _ | .invoicePaymentFailed _ | .subscriptionCreated _ | .other _ => True

end Harmless

/-! ## The balances after each change of the tables -/

section Changes

variable {cfg : WebhookConfig} {db db' db'' : Database} {now : Instant} {userId : ℤ} {periodKey : String}

theorem noRiseOf_refl (userId : ℤ) (db : Database) : NoRiseOf userId db db :=
  ⟨Nat.le_refl _, fun _ => Int.le_refl _, Int.le_refl _, Int.le_refl _⟩

theorem noRise_refl (db : Database) : NoRise db db := fun userId => noRiseOf_refl userId db

theorem noRiseOf_of_eq (hrow : db'.subscriptions userId = db.subscriptions userId)
    (hbuckets : db'.credits userId = db.credits userId) : NoRiseOf userId db db' := by
  constructor
  · unfold storedTier
    rw [hrow]
  · intro periodKey
    unfold bucketBalance
    rw [hbuckets]
  · unfold carryoverBalance
    rw [hrow]
  · unfold purchasedBalance
    rw [hrow]

theorem subscriptions_atTier_of_ne {other : ℤ} (hne : other ≠ userId) (tier : SubscriptionTier)
    (customer subscription : Option String) :
    (db.atTier userId tier customer subscription).subscriptions other = db.subscriptions other := by
  simp [Database.atTier, Database.setSubscription, hne]

theorem balances_atTier (tier : SubscriptionTier) (customer subscription : Option String) :
    carryoverBalance userId (db.atTier userId tier customer subscription) = carryoverBalance userId db ∧
      purchasedBalance userId (db.atTier userId tier customer subscription) = purchasedBalance userId db := by
  unfold carryoverBalance purchasedBalance Database.atTier upserted
  rcases hrow : db.subscriptions userId with _ | row
  · simp [Database.setSubscription, SubscriptionRow.fresh]
  · simp [Database.setSubscription, SubscriptionRow.assign]

theorem noRise_atTier_iff (tier : SubscriptionTier) (customer subscription : Option String) :
    NoRise db (db.atTier userId tier customer subscription) ↔ tierRank tier ≤ tierRank (storedTier userId db) := by
  constructor
  · intro h
    have htier := (h userId).tier
    rwa [storedTier_atTier] at htier
  · intro h other
    by_cases hne : other = userId
    · subst hne
      obtain ⟨hcarryover, hpurchased⟩ := @balances_atTier db other tier customer subscription
      refine ⟨?_, fun _ => Int.le_refl _, by rw [hcarryover], by rw [hpurchased]⟩
      rwa [storedTier_atTier]
    · exact noRiseOf_of_eq (subscriptions_atTier_of_ne hne tier customer subscription) rfl

theorem regranted_le_iff (bucket : Option CreditRow) {grant : ℕ} (hgrant : 0 < grant) :
    (regranted bucket grant).elim 0 (·.remaining) ≤ bucket.elim 0 (·.remaining) ↔ AtGrant bucket grant := by
  rcases bucket with _ | row
  · refine ⟨fun h => ?_, False.elim⟩
    have hle : (grant : ℤ) ≤ 0 := h
    omega
  · unfold regranted AtGrant
    dsimp only
    by_cases h : row.Valid ∧ row.allowance < grant
    · rw [if_pos h]
      obtain ⟨⟨hlow, hhigh⟩, hlt⟩ := h
      have hvalid : row.Valid := ⟨hlow, hhigh⟩
      simp only [Option.elim_some, hvalid, not_true, false_or]
      omega
    · rw [if_neg h]
      simp only [Option.elim_some, Int.le_refl, true_iff]
      by_cases hvalid : row.Valid
      · right
        have hnot : ¬ row.allowance < grant := fun hlt => h ⟨hvalid, hlt⟩
        omega
      · exact .inl hvalid

theorem bucketBalance_setBucket (bucket : Option CreditRow) (other : ℤ) (otherPeriod : String) :
    bucketBalance other otherPeriod (db.setBucket userId periodKey bucket) =
      if other = userId ∧ otherPeriod = periodKey then bucket.elim 0 (·.remaining) else bucketBalance other otherPeriod db := by
  unfold bucketBalance Database.setBucket
  by_cases hne : other = userId
  · subst hne
    by_cases hperiod : otherPeriod = periodKey
    · subst hperiod
      simp
    · simp [hperiod]
  · simp [hne]

theorem noRise_activated_iff (tier : SubscriptionTier) (customer subscription : Option String) :
    NoRise db (db.activated now userId tier customer subscription) ↔ AtTierAlready db now userId tier := by
  unfold AtTierAlready
  rcases hgrant : (TierPolicy.forTier tier).monthlyConversionCredits with _ | grant
  · rw [activated_of_no_grant hgrant]
    simp only [noRise_atTier_iff, reduceCtorEq, false_imp_iff, implies_true, and_true]
  · have hpos := monthlyConversionCredits_pos hgrant
    rw [activated_of_grant hgrant]
    have hplan : ∀ other otherPeriod, bucketBalance other otherPeriod
        ((db.atTier userId tier customer subscription).setBucket userId (currentPeriodKey now)
          (regranted (db.credits userId (currentPeriodKey now)) grant)) =
        if other = userId ∧ otherPeriod = currentPeriodKey now then
          (regranted (db.credits userId (currentPeriodKey now)) grant).elim 0 (·.remaining)
        else bucketBalance other otherPeriod db := bucketBalance_setBucket _
    constructor
    · intro h
      refine ⟨(noRise_atTier_iff tier customer subscription).1 fun other => ?_, fun n hn => ?_⟩
      · exact ⟨(h other).tier, fun _ => Int.le_refl _, (h other).carryover, (h other).purchased⟩
      · cases hn
        have hbucket := (h userId).plan (currentPeriodKey now)
        rw [hplan, if_pos ⟨rfl, rfl⟩] at hbucket
        exact (regranted_le_iff _ hpos).1 hbucket
    · rintro ⟨htier, hbucket⟩ other
      have hrow := (@noRise_atTier_iff db userId tier customer subscription).2 htier other
      refine ⟨hrow.tier, fun otherPeriod => ?_, hrow.carryover, hrow.purchased⟩
      rw [hplan]
      split_ifs with heq
      · obtain ⟨rfl, rfl⟩ := heq
        exact (regranted_le_iff _ hpos).2 (hbucket _ rfl)
      · exact Int.le_refl _

theorem noRise_activation_iff (tierName customer subscription priceId : Option String) :
    NoRise db (db.activation cfg.prices now userId tierName customer subscription priceId) ↔
      ActivationHarmless cfg db now userId tierName priceId := by
  unfold Database.activation ActivationHarmless activationTier
  rcases resolveActivationTier cfg.prices tierName priceId with err | tier
  · simp [Except.toOption, noRise_refl]
  · simp [Except.toOption, noRise_activated_iff]

theorem selectSubscription_withWallet (db : Database) (userId : ℤ) :
    ∃ row, (db.withWallet userId).selectSubscription userId = some row := by
  unfold Database.withWallet
  rcases hselect : db.selectSubscription userId with _ | row
  · refine ⟨upserted db userId .free none none, ?_⟩
    have hid : (upserted db userId .free none none).userId = some userId := by
      unfold upserted
      split <;> rfl
    simp [Database.selectSubscription, Database.atTier, Database.setSubscription, hid]
  · exact ⟨row, hselect⟩

theorem noRise_withWallet (db : Database) (userId : ℤ) : NoRise db (db.withWallet userId) := by
  unfold Database.withWallet
  split
  · exact noRise_refl db
  · exact (noRise_atTier_iff .free none none).2 (Nat.zero_le _)

theorem purchasedBalance_withWallet (db : Database) (userId : ℤ) :
    purchasedBalance userId (db.withWallet userId) = purchasedBalance userId db := by
  unfold Database.withWallet
  split
  · rfl
  · exact (balances_atTier .free none none).2

theorem recorded_of_isListed {referenceId : String} (h : isListed referenceId (db.listTransactions userId 200) = true) :
    db.recorded referenceId = true := by
  unfold isListed at h
  obtain ⟨t, ht, href⟩ := List.any_eq_true.1 h
  have hmem := (List.mem_insertionSort _).1 (List.mem_of_mem_take ht)
  refine List.any_eq_true.2 ⟨t, (List.mem_filter.1 hmem).1, ?_⟩
  simp only [decide_eq_true_eq] at href ⊢
  exact href.2

theorem noRise_purchased_iff {credits : ℤ} {referenceId : String} (hcredits : 1 ≤ credits) :
    NoRise db (db.purchased now userId credits referenceId) ↔ db.recorded referenceId = true := by
  obtain ⟨row, hrow⟩ := selectSubscription_withWallet db userId
  unfold Database.purchased
  by_cases hlisted : isListed referenceId (db.listTransactions userId 200) = true
  · rw [if_pos hlisted]
    exact ⟨fun _ => recorded_of_isListed hlisted, fun _ => noRise_refl db⟩
  rw [if_neg hlisted, hrow]
  dsimp only
  by_cases hrec : db.recorded referenceId = true
  · rw [if_pos hrec]
    exact ⟨fun _ => hrec, fun _ => noRise_withWallet db userId⟩
  · rw [if_neg hrec]
    refine ⟨fun h => ?_, fun h => absurd h hrec⟩
    have hrises := (h userId).purchased
    have hafter : purchasedBalance userId (((db.withWallet userId).setSubscription userId
        { row with purchasedCredits := row.purchasedCredits + credits }).addTransaction
          ⟨"transaction", userId, credits, .purchase, some referenceId, now⟩) = row.purchasedCredits + credits := by
      simp [purchasedBalance, Database.addTransaction, Database.setSubscription]
    have hbefore : purchasedBalance userId db = row.purchasedCredits := by
      rw [← purchasedBalance_withWallet, purchasedBalance, (select_some hrow).1]
      rfl
    rw [hafter, hbefore] at hrises
    omega

theorem noRise_afterCheckout_iff (session : CheckoutSession) :
    NoRise db (db.afterCheckout cfg now session) ↔ CheckoutHarmless cfg db now session := by
  unfold Database.afterCheckout CheckoutHarmless
  by_cases hunpaid : session.paymentStatus = some "unpaid"
  · rw [if_pos hunpaid]
    exact ⟨fun _ hpaid => absurd hunpaid hpaid, fun _ => noRise_refl db⟩
  rw [if_neg hunpaid]
  simp only [ne_eq, hunpaid, not_false_eq_true, true_imp_iff]
  rcases session.metadata.userId with _ | userId
  · simp [noRise_refl]
  simp only [Option.some.injEq, forall_eq']
  by_cases hkind : session.metadata.kind = some "credit_purchase"
  · rw [if_pos hkind, if_pos hkind]
    unfold PurchaseHarmless
    rcases truthy session.id with _ | referenceId
    · simp [noRise_refl]
    simp only [Option.some.injEq, forall_eq']
    by_cases hrange : purchasedUnits session.metadata < 1 ∨ 100000 < purchasedUnits session.metadata
    · rw [if_pos hrange]
      refine ⟨fun _ => ?_, fun _ => noRise_refl db⟩
      rcases hrange with h | h
      · exact .inl h
      · exact .inr (.inl h)
    · rw [if_neg hrange, noRise_purchased_iff (by omega)]
      refine ⟨fun h => .inr (.inr h), fun h => ?_⟩
      rcases h with h | h | h
      · exact absurd (.inl h) hrange
      · exact absurd (.inr h) hrange
      · exact h
  · rw [if_neg hkind, if_neg hkind]
    exact noRise_activation_iff _ _ _ _

theorem noRise_afterUpdate_iff (subscription : StripeSubscription) :
    NoRise db (db.afterUpdate cfg now subscription) ↔ UpdateHarmless cfg db now subscription := by
  unfold Database.afterUpdate UpdateHarmless
  rcases subscription.userId with _ | userId
  · simp [noRise_refl]
  simp only [Option.some.injEq, forall_eq']
  by_cases hcanceled : subscription.status = some "canceled"
  · rw [if_pos hcanceled]
    exact ⟨fun _ h => absurd hcanceled h, fun _ => (noRise_atTier_iff .free none none).2 (Nat.zero_le _)⟩
  · rw [if_neg hcanceled, noRise_activation_iff]
    simp [hcanceled]

/-- **A delivery** without a payment raises nothing exactly if what its event asks for is there already. -/
theorem noRise_delivered_iff {d : Delivery} (hnot : ¬ d.event.Entitled) :
    NoRise db (deliver cfg db d) ↔ Harmless cfg db d := by
  rw [deliver_eq]
  obtain ⟨now, event, retrieved⟩ := d
  cases event with
  | checkoutCompleted session => exact noRise_afterCheckout_iff session
  | checkoutAsyncSucceeded session => exact noRise_afterCheckout_iff session
  | checkoutAsyncFailed session => exact noRise_afterCheckout_iff session
  | subscriptionUpdated subscription => exact noRise_afterUpdate_iff subscription
  | subscriptionDeleted subscription =>
    refine ⟨fun _ => trivial, fun _ => ?_⟩
    show NoRise db (db.afterDeletion subscription)
    unfold Database.afterDeletion
    rcases subscription.userId with _ | userId
    · exact noRise_refl db
    · exact (noRise_atTier_iff .free none none).2 (Nat.zero_le _)
  | invoicePaymentSucceeded invoice => exact absurd trivial hnot
  | invoicePaymentFailed invoice => exact ⟨fun _ => trivial, fun _ => noRise_refl db⟩
  | subscriptionCreated subscription => exact ⟨fun _ => trivial, fun _ => noRise_refl db⟩
  | other type => exact ⟨fun _ => trivial, fun _ => noRise_refl db⟩

end Changes

/-! ## Runs -/

section Runs

variable (cfg : WebhookConfig)

/-- The tables after a delivery, which always can be handled. -/
def deliverStep (db : Database) (d : Delivery) : Option Database := some (deliver cfg db d)

/-- The delivery stands for a payment, or raises nothing. -/
def RaisesWithPayment (db : Database) (d : Delivery) (db' : Database) : Prop := ¬ d.event.Entitled → NoRise db db'

/-- The delivery stands for a payment, or what it asks for is there already. -/
def HarmlessWithoutPayment (db : Database) (d : Delivery) (_ : Database) : Prop := ¬ d.event.Entitled → Harmless cfg db d

variable {cfg}

theorem raises_with_payment_step {db db' : Database} {d : Delivery} (h : deliverStep cfg db d = some db') :
    RaisesWithPayment db d db' ↔ HarmlessWithoutPayment cfg db d db' := by
  cases h
  exact forall_congr' fun hnot => noRise_delivered_iff hnot

/-- **In every sequence of deliveries**, tiers and balances rise with a payment only, exactly if every event that stands for
none finds what it asks for there already. -/
theorem raises_with_payment_iff (cfg : WebhookConfig) (db : Database) (tr : List (Delivery × Database))
    (h : Path (deliverStep cfg) db tr) :
    Throughout RaisesWithPayment db tr ↔ Throughout (HarmlessWithoutPayment cfg) db tr := by
  constructor
  · intro hraises
    exact throughout_of_step (I := fun _ => True)
      (fun _ _ _ _ hstep hφ => ⟨trivial, (raises_with_payment_step hstep).1 hφ⟩) trivial h hraises
  · intro hharmless
    exact throughout_of_step (I := fun _ => True)
      (fun _ _ _ _ hstep hφ => ⟨trivial, (raises_with_payment_step hstep).2 hφ⟩) trivial h hharmless

end Runs

/-! ## A subscription that lapses, and one that is never paid -/

section Concrete

/-- A PRO subscription of user 7 under a status. -/
def proUpdate (status : String) : Delivery := ⟨0, .subscriptionUpdated (oldLife.shown 7 (proVersion status)), none⟩

/-- An active subscription whose next payment is overdue, and then fails. -/
def lapsing : List Delivery := [proUpdate "active", proUpdate "past_due", proUpdate "unpaid"]

theorem proUpdate_harmless {db : Database} {status : String} (htier : tierRank .pro ≤ tierRank (storedTier 7 db))
    (hbucket : AtGrant (db.credits 7 (currentPeriodKey 0)) 500) : Harmless ⟨somePrices, true⟩ db (proUpdate status) := by
  intro _ userId huser tier htier'
  cases huser
  have hpro : activationTier somePrices (some "pro") (some "price_pro") = some .pro := by decide +kernel
  have heq : SubscriptionTier.pro = tier := Option.some.inj (hpro.symm.trans htier')
  subst heq
  refine ⟨htier, fun grant hgrant => ?_⟩
  cases hgrant
  exact hbucket

theorem lapsing_raises_nothing :
    Throughout RaisesWithPayment noRows (trace (deliverStep ⟨somePrices, true⟩) noRows lapsing) :=
  (raises_with_payment_iff ⟨somePrices, true⟩ noRows (trace (deliverStep ⟨somePrices, true⟩) noRows lapsing)
    (path_trace lapsing noRows)).2
    ⟨fun hnot => absurd (.inl rfl) hnot,
      fun _ => proUpdate_harmless (by decide +kernel) (by decide +kernel),
      fun _ => proUpdate_harmless (by decide +kernel) (by decide +kernel), trivial⟩

/-- The update of a subscription whose first payment never arrived makes a FREE user PRO, with the credits of the month. -/
theorem expired_update_raises :
    ¬ (proUpdate "incomplete_expired").event.Entitled ∧
    storedTier 7 noRows = .free ∧ storedTier 7 (deliver ⟨somePrices, true⟩ noRows (proUpdate "incomplete_expired")) = .pro ∧
    bucketBalance 7 (currentPeriodKey 0) noRows = 0 ∧
    bucketBalance 7 (currentPeriodKey 0) (deliver ⟨somePrices, true⟩ noRows (proUpdate "incomplete_expired")) = 500 ∧
    ¬ Throughout RaisesWithPayment noRows
      (trace (deliverStep ⟨somePrices, true⟩) noRows [proUpdate "incomplete_expired"]) := by
  have hnot : ¬ (proUpdate "incomplete_expired").event.Entitled := by decide +kernel
  have hpro : storedTier 7 (deliver ⟨somePrices, true⟩ noRows (proUpdate "incomplete_expired")) = .pro := by decide +kernel
  refine ⟨hnot, by decide +kernel, hpro, by decide +kernel, by decide +kernel, ?_⟩
  rintro ⟨hraises, _⟩
  have htier := (hraises hnot 7).tier
  rw [hpro] at htier
  revert htier
  decide +kernel

end Concrete

end Transform.Billing
