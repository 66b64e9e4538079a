import Transform.Billing.Database

/-!
# Billing.Programs — the writers of the wallet

The worker's `consume`, the Stripe webhook's activation and credit purchase, and the `change-plan` request, each a
session over the tables: what it reads, what it computes from it, and the one commit that makes it durable.
-/

namespace Transform.Billing

open Lib Conversions

/-! ## The credit period -/

section Period

/-- Year and month of a day counted from 1970-01-01, in the proleptic Gregorian calendar. -/
def civilMonth (day : ℤ) : ℤ × ℤ :=
  let z := day + 719468
  let era := z / 146097
  let dayOfEra := z % 146097
  let yearOfEra := (dayOfEra - dayOfEra / 1460 + dayOfEra / 36524 - dayOfEra / 146096) / 365
  let dayOfYear := dayOfEra - (365 * yearOfEra + yearOfEra / 4 - yearOfEra / 100)
  -- months count from March, so that a leap day ends the year
  let month := (5 * dayOfYear + 2) / 153
  if month < 10 then (yearOfEra + era * 400, month + 3) else (yearOfEra + era * 400 + 1, month - 9)

def microsecondsPerDay : ℤ := 24 * 60 * 60 * 1000000

def zeroPadded (width : ℕ) (n : ℤ) : String :=
  let digits := toString n
  String.ofList (List.replicate (width - digits.length) '0') ++ digits

/-- The key of the UTC calendar month of an instant. -/
def currentPeriodKey (now : Instant) : String :=
  let (year, month) := civilMonth (now / microsecondsPerDay)
  zeroPadded 4 year ++ "-" ++ zeroPadded 2 month

end Period

/-! ## Repositories -/

section Repositories

/-- The bucket of a user and period, validated. -/
def getCredit (ownerId : ℤ) (periodKey : String) : BillM (Option Credit) := do
  match ← call (.selectCredit ownerId periodKey) with
  | none => pure none
  | some row => do
    let credit ← .ofExcept (Credit.of row.allowance row.remaining)
    pure (some credit)

def getTierForUser (userId : ℤ) : BillM SubscriptionTier := do
  let row ← call (.selectSubscription userId)
  pure (row.elim .free (·.tier))

/-- `save_credit` up to its commit: the bucket is read again, and inserted or changed. -/
def stageCredit (ownerId : ℤ) (periodKey : String) (row : CreditRow) : BillM (ℤ × String × RowWrite CreditRow) := do
  match ← call (.selectCredit ownerId periodKey) with
  | none => pure (ownerId, periodKey, .insert row)
  | some old => pure (ownerId, periodKey, .update old row)

def saveCredit (ownerId : ℤ) (periodKey : String) (row : CreditRow) : BillM Unit := do
  let staged ← stageCredit ownerId periodKey row
  call (.commit { credit := some staged })

/-- The spent balances on the row the session loaded, if it found one. -/
def applyWalletBalances (userId : ℤ) (wallet : Option SubscriptionRow) (spent : WalletBalances) :
    Option (ℤ × RowWrite SubscriptionRow) :=
  wallet.map fun row => (userId, .update row
    { row with carryoverCredits := spent.carryoverCredits, purchasedCredits := spent.purchasedCredits })

/-- The row of a user that has none yet. -/
def SubscriptionRow.fresh (userId : ℤ) (tier : SubscriptionTier)
    (stripeCustomerId stripeSubscriptionId : Option String) : SubscriptionRow :=
  { userId := some userId, tier, stripeCustomerId, stripeSubscriptionId }

/-- The row with the tier set, and the Stripe ids where they are given. -/
def SubscriptionRow.assign (row : SubscriptionRow) (userId : ℤ) (tier : SubscriptionTier)
    (stripeCustomerId stripeSubscriptionId : Option String) : SubscriptionRow :=
  { row with
    userId := some userId
    tier := tier
    stripeCustomerId := stripeCustomerId <|> row.stripeCustomerId
    stripeSubscriptionId := stripeSubscriptionId <|> row.stripeSubscriptionId }

/-- Create or update the row at the key of a user, and commit. -/
def upsertSubscription (userId : ℤ) (tier : SubscriptionTier)
    (stripeCustomerId stripeSubscriptionId : Option String) : BillM Unit := do
  match ← call (.getSubscription userId) with
  | none => call (.commit
      { subscription := some (userId, .insert (.fresh userId tier stripeCustomerId stripeSubscriptionId)) })
  | some row => call (.commit
      { subscription := some (userId, .update row (row.assign userId tier stripeCustomerId stripeSubscriptionId)) })

end Repositories

/-! ## The worker's consumption -/

section Consumption

/-- The stored bucket, or a full one of the tier where there is none. -/
def creditOrGrant (userId : ℤ) (periodKey : String) : BillM Credit := do
  match ← getCredit userId periodKey with
  | some credit => pure credit
  | none => do
    let tier ← getTierForUser userId
    .ofExcept (Credit.fromTier tier)

def walletBalances (credit : Credit) (wallet : Option SubscriptionRow) : Except PyError WalletBalances :=
  WalletBalances.of credit.remaining (wallet.elim 0 (·.carryoverCredits)) (wallet.elim 0 (·.purchasedCredits))

/-- Purchased credits go first only where the user asked for it, and only for programmatic jobs. -/
def preferPurchased (wallet : Option SubscriptionRow) (origin : JobOrigin) : Bool :=
  wallet.any (·.purchasedCreditsFirst) && origin = .api

variable (userId : ℤ) (periodKey : String) (units : ℤ) (origin : JobOrigin)

/-- One read, spend and save; `onConflict` handles the loss of a race for the bucket. -/
def consumeAttempt (onConflict : PyError → BillM ℤ) : BillM ℤ := do
  let credit ← creditOrGrant userId periodKey
  let wallet ← call (.selectSubscription userId)
  let balances ← .ofExcept (walletBalances credit wallet)
  let now ← call .utcNow
  let spent ← .ofExcept (consumeFromWallet balances units (wallet.bind (·.carryoverExpiresAt)) now
    (preferPurchased wallet origin))
  let save : BillM ℤ := do
    let staged ← stageCredit userId periodKey ⟨credit.allowance, spent.planRemaining⟩
    call (.commit { credit := some staged, subscription := applyWalletBalances userId wallet spent })
    pure spent.planRemaining
  save.tryCatch fun e => if e.cls = .integrityError then onConflict e else .throw e

/-- `_consume_once`: a lost race for the bucket is retried once in the same session. -/
def consumeOnce : (retried : Bool) → BillM ℤ
  | true => consumeAttempt userId periodKey units origin .throw
  | false => consumeAttempt userId periodKey units origin fun _ => consumeAttempt userId periodKey units origin .throw

/-- `consume`: a dropped connection is retried once on a fresh session. -/
def consume : BillM ℤ :=
  (consumeOnce userId periodKey units origin false).tryCatch fun e =>
    if e.cls.retryable then consumeOnce userId periodKey units origin false else .throw e

end Consumption

/-! ## The webhook -/

section Webhook

/-- The configured prices of the self-serve tiers. -/
structure StripePrices where
  pro : String
  proPlus : String
  enterprise : String

def tierByName : String → Option SubscriptionTier
  | "pro" => some .pro
  | "pro_plus" => some .proPlus
  | "enterprise" => some .enterprise
  | _ => none

/-- The tier of a price; where two tiers share a price, the table keeps the later. -/
def tierForPriceId (prices : StripePrices) (priceId : Option String) : Option SubscriptionTier :=
  match truthy priceId with
  | none => none
  | some price =>
    if price = prices.enterprise then some .enterprise
    else if price = prices.proPlus then some .proPlus
    else if price = prices.pro then some .pro
    else none

/-- The price wins over the metadata. -/
def resolveActivationTier (prices : StripePrices) (tierName priceId : Option String) :
    Except PyError SubscriptionTier :=
  match tierForPriceId prices priceId, tierByName ((tierName.getD "").toLower) with
  | some tier, _ => .ok tier
  | none, some tier => .ok tier
  | none, none =>
    let shown := tierName.elim "None" pyRepr
    let price := priceId.elim "None" pyRepr
    .error ⟨.valueError, s!"Unrecognised subscription tier: {shown} (price id {price})"⟩

/-- Raise a bucket to a grant, and what is left of it by the difference; never lower either. -/
def raiseBucket (ownerId : ℤ) (periodKey : String) (allowance : ℤ) (existing : Credit) : BillM Unit :=
  let delta := allowance - existing.allowance
  if 0 < delta then
    saveCredit ownerId periodKey ⟨allowance, min (existing.remaining + delta) allowance⟩
  else pure ()

/-- The bucket of a new period is the tier's grant. -/
def openBucket (ownerId : ℤ) (periodKey : String) (tier : SubscriptionTier) : BillM Unit := do
  let credit ← .ofExcept (Credit.fromTier tier)
  saveCredit ownerId periodKey ⟨credit.allowance, credit.remaining⟩

def grantPlan (userId : ℤ) (tier : SubscriptionTier) (allowance : ℤ) : BillM Unit := do
  let now ← call .utcNow
  match ← getCredit userId (currentPeriodKey now) with
  | some existing => raiseBucket userId (currentPeriodKey now) allowance existing
  | none => openBucket userId (currentPeriodKey now) tier

/-- Set the tier of a user and grant its monthly credits. -/
def activateSubscription (prices : StripePrices) (userId : ℤ)
    (tierName stripeCustomerId stripeSubscriptionId priceId : Option String) : BillM Unit := do
  let tier ← .ofExcept (resolveActivationTier prices tierName priceId)
  upsertSubscription userId tier stripeCustomerId stripeSubscriptionId
  match (TierPolicy.forTier tier).monthlyConversionCredits with
  | none | some 0 => pure ()
  | some allowance => grantPlan userId tier allowance

/-- The wallet row of a user, created on the FREE tier where there is none. -/
def walletRow (userId : ℤ) : BillM (Option SubscriptionRow) := do
  match ← call (.selectSubscription userId) with
  | some row => pure (some row)
  | none => do
    upsertSubscription userId .free none none
    call (.selectSubscription userId)

/-- The wallet bump and the ledger row, in one commit; a reference that is taken undoes both. -/
def recordPurchase (userId credits : ℤ) (referenceId : String) (row : SubscriptionRow) : BillM Unit :=
  let record : BillM Unit := do
    let id ← call .uuid4
    let now ← call .utcNow
    call (.commit
      { subscription := some (userId, .update row { row with purchasedCredits := row.purchasedCredits + credits })
        ledger := some ⟨id, userId, credits, .purchase, some referenceId, now⟩ })
  record.tryCatch fun e => if e.cls = .integrityError then pure () else .throw e

def addPurchase (userId credits : ℤ) (referenceId : String) : BillM Unit := do
  match ← walletRow userId with
  | none => pure ()
  | some row => recordPurchase userId credits referenceId row

def isListed (referenceId : String) (transactions : List CreditTransaction) : Bool :=
  transactions.any fun t => t.transactionType = .purchase ∧ t.referenceId = some referenceId

def grantUnlessListed (userId credits : ℤ) (referenceId : String) : BillM Unit := do
  let existing ← call (.listTransactions userId 200)
  if isListed referenceId existing then pure () else addPurchase userId credits referenceId

def grantPurchasedCredits (userId credits : ℤ) (referenceId : Option String) : BillM Unit :=
  match truthy referenceId with
  | none => pure ()
  | some ref => if credits < 1 ∨ 100000 < credits then pure () else grantUnlessListed userId credits ref

structure CheckoutMetadata where
  kind : Option String
  userId : Option ℤ
  credits : Option String
  tier : Option String
  deriving DecidableEq, Repr

/-- A checkout session as the webhook delivers it. -/
structure CheckoutSession where
  id : Option String
  paymentStatus : Option String
  customer : Option String
  subscription : Option String
  metadata : CheckoutMetadata
  deriving DecidableEq, Repr

/-- The credits of a purchase; what is no integer counts as none. -/
def purchasedUnits (metadata : CheckoutMetadata) : ℤ :=
  match metadata.credits with
  | none => 0
  | some text => (pyInt text).toOption.getD 0

def handleCreditPurchase (session : CheckoutSession) : BillM Unit :=
  match session.metadata.userId with
  | none => pure ()
  | some userId =>
    if purchasedUnits session.metadata = 0 then pure ()
    else grantPurchasedCredits userId (purchasedUnits session.metadata) session.id

def handleActivation (prices : StripePrices) (session : CheckoutSession) : BillM Unit :=
  match session.metadata.userId with
  | none => pure ()
  | some userId =>
    (activateSubscription prices userId (some (session.metadata.tier.getD "pro")) session.customer
      session.subscription none).tryCatch fun e => if e.cls = .valueError then pure () else .throw e

/-- A session that is not paid is skipped. -/
def handleCheckoutCompleted (prices : StripePrices) (session : CheckoutSession) : BillM Unit :=
  if session.paymentStatus = some "unpaid" then pure ()
  else if session.metadata.kind = some "credit_purchase" then handleCreditPurchase session
  else handleActivation prices session

/-- The webhook's answer to a checkout event; an exception is answered by the framework, with an error. -/
def handleStripeWebhook (prices : StripePrices) (session : CheckoutSession) : BillM Unit := do
  handleCheckoutCompleted prices session
  call (.respond 200)

end Webhook

/-! ## The change of plan -/

section ChangePlan

inductive ApiTier
  | free
  | pro
  | proPlus
  | enterprise
  deriving DecidableEq, Repr

def ApiTier.value : ApiTier → String
  | .free => "FREE"
  | .pro => "PRO"
  | .proPlus => "PRO_PLUS"
  | .enterprise => "ENTERPRISE"

def apiTierToDomain : ApiTier → SubscriptionTier
  | .free => .free
  | .pro => .pro
  | .proPlus => .proPlus
  | .enterprise => .enterprise

def domainTierToApi : SubscriptionTier → ApiTier
  | .guest => .free
  | .free => .free
  | .premium => .pro
  | .pro => .pro
  | .proPlus => .proPlus
  | .enterprise => .enterprise

def tierRank : SubscriptionTier → ℕ
  | .guest => 0
  | .free => 0
  | .premium => 1
  | .pro => 1
  | .proPlus => 2
  | .enterprise => 3

structure StripeService where
  enabled : Bool
  prices : StripePrices

def StripeService.resolvePriceId (stripe : StripeService) : SubscriptionTier → Option String
  | .pro => some stripe.prices.pro
  | .proPlus => some stripe.prices.proPlus
  | .enterprise => some stripe.prices.enterprise
  | _ => none

structure ChangePlanResponse where
  tier : ApiTier
  previousTier : ApiTier
  planCredits : ℤ := 0
  carryoverCredits : ℤ := 0
  carryoverExpiresAt : Option Instant := none
  scheduledEffectiveAt : Option Instant := none
  message : String
  deriving DecidableEq, Repr

/-- The monthly grant of a tier; a tier without one counts as none. -/
def monthlyGrant (tier : SubscriptionTier) : ℤ := ((TierPolicy.forTier tier).monthlyConversionCredits.getD 0 : ℕ)

theorem monthlyGrant_nonneg (tier : SubscriptionTier) : 0 ≤ monthlyGrant tier := Int.natCast_nonneg _

def checkRequested (stripe : StripeService) (requested : SubscriptionTier) : Except PyError Unit :=
  if !stripe.enabled then .error ⟨.http 501,
    "Stripe integration is not configured. Set STRIPE_SECRET_KEY to enable plan changes."⟩
  else if requested = .enterprise then .error ⟨.http 400,
    "Enterprise is not self-serve; contact sales to change plans."⟩
  else if requested = .free then .error ⟨.http 400, "Use the cancel endpoint to move to the FREE tier."⟩
  else .ok ()

/-- The subscription to change, and the price to change it to. -/
structure PlanTarget where
  row : SubscriptionRow
  subscriptionId : String
  newPriceId : String

def checkCurrent (stripe : StripeService) (requested : SubscriptionTier) (row : Option SubscriptionRow) :
    Except PyError PlanTarget :=
  match row, row.bind fun r => truthy r.stripeSubscriptionId with
  | some row, some subscriptionId =>
    if row.tier = requested then .error ⟨.http 400, "Already subscribed to this plan"⟩
    else match truthy (stripe.resolvePriceId requested) with
      | none => .error ⟨.http 400, "No self-serve price is configured for this plan"⟩
      | some newPriceId => .ok ⟨row, subscriptionId, newPriceId⟩
  | _, _ => .error ⟨.http 409, "No active paid subscription to change. Use checkout to start one."⟩

theorem checkCurrent_ok {stripe : StripeService} {requested : SubscriptionTier} {row : Option SubscriptionRow}
    {target : PlanTarget} (h : checkCurrent stripe requested row = .ok target) : row = some target.row := by
  unfold checkCurrent at h
  split at h
  · split_ifs at h
    split at h
    · cases h
    · cases h
      rfl
  · cases h

/-- The row an upgrade leaves: the stored carryover and the unspent plan credits, with a new expiry. -/
def SubscriptionRow.upgraded (row : SubscriptionRow) (requested : SubscriptionTier) (oldPlanRemaining : ℤ)
    (previousPeriodEnd : Option Instant) : SubscriptionRow :=
  { row with
    tier := requested
    carryoverCredits := row.carryoverCredits + oldPlanRemaining
    carryoverExpiresAt := previousPeriodEnd }

/-- The three writes of an upgrade, in one commit.  The row is read again before them, its change already flushed. -/
def applyUpgrade (userId : ℤ) (periodKey : String) (requested : SubscriptionTier) (row : SubscriptionRow)
    (oldPlanRemaining : ℤ) (previousPeriodEnd : Option Instant) : BillM ChangePlanResponse := do
  match ← call (.selectSubscription userId) with
  | none => .throw staleDataError
  | some _ => do
    let staged ← stageCredit userId periodKey ⟨monthlyGrant requested, monthlyGrant requested⟩
    let id ← call .uuid4
    let now ← call .utcNow
    call (.commit
      { subscription := some (userId, .update row (row.upgraded requested oldPlanRemaining previousPeriodEnd))
        credit := some staged
        ledger := some ⟨id, userId, oldPlanRemaining, .carryover, none, now⟩ })
    pure
      { tier := domainTierToApi requested
        previousTier := domainTierToApi row.tier
        planCredits := monthlyGrant requested
        carryoverCredits := row.carryoverCredits + oldPlanRemaining
        carryoverExpiresAt := previousPeriodEnd
        message := "Upgrade applied. Your unspent plan credits were carried over and expire at the end of your " ++
          "previous billing period." }

/-- What follows Stripe's answer: an upgrade now, a downgrade at the period end. -/
def finishChange (userId : ℤ) (periodKey : String) (requested : SubscriptionTier) (row : SubscriptionRow)
    (oldPlanRemaining : ℤ) : Option PlanChangeResult → BillM ChangePlanResponse
  | none => .throw ⟨.http 502, "Stripe subscription could not be changed"⟩
  | some result =>
    if tierRank row.tier < tierRank requested then
      applyUpgrade userId periodKey requested row oldPlanRemaining result.previousPeriodEnd
    else pure
      { tier := domainTierToApi requested
        previousTier := domainTierToApi row.tier
        scheduledEffectiveAt := result.scheduledEffectiveAt
        message := "Downgrade scheduled. It takes effect at the end of the current billing period; you keep your " ++
          "current plan until then." }

/-- `change_plan`. -/
def changePlan (stripe : StripeService) (userId : ℤ) (tier : ApiTier) : BillM ChangePlanResponse := do
  let requested := apiTierToDomain tier
  .ofExcept (checkRequested stripe requested)
  let selected ← call (.selectSubscription userId)
  let target ← .ofExcept (checkCurrent stripe requested selected)
  let now ← call .utcNow
  let credit ← getCredit userId (currentPeriodKey now)
  let oldPlanRemaining := credit.elim (monthlyGrant target.row.tier) (·.remaining)
  let result ← call (.changeSubscriptionPlan target.subscriptionId target.newPriceId userId requested
    (tierRank target.row.tier < tierRank requested))
  finishChange userId (currentPeriodKey now) requested target.row oldPlanRemaining result

end ChangePlan

end Transform.Billing
