import Transform.Billing.Webhooks

/-!
# Billing.TierRuns — the tier after all events of a user's subscriptions

A user's subscriptions, each with what it is created as, updated to and ended as, and their events delivered in some order
and any number of times.  The stored tier is what the last delivery that sets one sets (`storedTier_deliverAll`), whichever
subscription it is about and however old it is; so it is the billed tier of the subscription that is left exactly if that
last delivery happens to say so (`tier_follows_iff`).
-/

namespace Transform.Billing

open Conversions

/-! ## Subscriptions and their events -/

section Lives

/-- What a subscription is at one moment. -/
structure SubscriptionVersion where
  status : String
  tier : Option String
  priceId : Option String
  deriving DecidableEq, Repr

/-- A subscription from its creation on; `checkout` has the id and the payment status of the checkout session that it came
from, `ended` what it was when it was deleted. -/
structure SubscriptionLife where
  id : String
  customer : Option String
  checkout : Option (String × String)
  created : SubscriptionVersion
  updates : List SubscriptionVersion
  ended : Option SubscriptionVersion
  deriving DecidableEq, Repr

namespace SubscriptionLife

variable (userId : ℤ) (life : SubscriptionLife)

/-- The payload of an event about the subscription. -/
def shown (version : SubscriptionVersion) : StripeSubscription :=
  ⟨some life.id, some version.status, life.customer, some userId, version.tier, [version.priceId]⟩

def checkoutSession (sessionId paymentStatus : String) : CheckoutSession where
  id := some sessionId
  paymentStatus := some paymentStatus
  customer := life.customer
  subscription := some life.id
  metadata := ⟨some "subscription", some userId, none, life.created.tier⟩

def events : List WebhookEvent :=
  (life.checkout.map fun (sessionId, status) => .checkoutCompleted (life.checkoutSession userId sessionId status)).toList
    ++ [.subscriptionCreated (life.shown userId life.created)]
    ++ life.updates.map (fun version => .subscriptionUpdated (life.shown userId version))
    ++ (life.ended.map fun version => .subscriptionDeleted (life.shown userId version)).toList

def latest : SubscriptionVersion := life.updates.getLast?.getD life.created

/-- Not deleted, and active or trialing as it is now. -/
def Live : Prop := life.ended = none ∧ (life.latest.status = "active" ∨ life.latest.status = "trialing")

instance : Decidable life.Live := inferInstanceAs (Decidable (_ ∧ _))

end SubscriptionLife

/-- Each event of the subscriptions is delivered, at least once, and no other. -/
def Delivers (userId : ℤ) (lives : List SubscriptionLife) (ds : List Delivery) : Prop :=
  ∀ event, (∃ d ∈ ds, d.event = event) ↔ ∃ life ∈ lives, event ∈ life.events userId

/-- The tier of a user; without a row it is FREE. -/
def storedTier (userId : ℤ) (db : Database) : SubscriptionTier := (db.subscriptions userId).elim .free (·.tier)

/-- The tier is what the subscription that is left is billed, or FREE if none is. -/
def Follows (prices : StripePrices) (lives : List SubscriptionLife) (tier : SubscriptionTier) : Prop :=
  (∀ life ∈ lives, life.Live → tierForPriceId prices life.latest.priceId = some tier) ∧
    ((∀ life ∈ lives, ¬ life.Live) → tier = .free)

instance (prices : StripePrices) (lives : List SubscriptionLife) (tier : SubscriptionTier) :
    Decidable (Follows prices lives tier) := inferInstanceAs (Decidable (_ ∧ _))

end Lives

/-! ## What one delivery sets -/

section Effects

variable (prices : StripePrices)

def activationTier (tierName priceId : Option String) : Option SubscriptionTier :=
  (resolveActivationTier prices tierName priceId).toOption

def WebhookEvent.Ends : WebhookEvent → Prop
  | .subscriptionUpdated subscription => subscription.status = some "canceled"
  | .subscriptionDeleted _ => True
  | _ => False

instance : DecidablePred WebhookEvent.Ends
  | .subscriptionUpdated subscription => inferInstanceAs (Decidable (subscription.status = some "canceled"))
  | .subscriptionDeleted _ => isTrue trivial
  | .checkoutCompleted _ | .checkoutAsyncSucceeded _ | .checkoutAsyncFailed _ | .invoicePaymentSucceeded _
  | .invoicePaymentFailed _ | .subscriptionCreated _ | .other _ => isFalse id

def WebhookEvent.activates : WebhookEvent → Option SubscriptionTier
  | .checkoutCompleted session =>
    if session.paymentStatus = some "unpaid" then none else activationTier prices (some (session.metadata.tier.getD "pro")) none
  | .subscriptionUpdated subscription =>
    if subscription.status = some "canceled" then none else activationTier prices subscription.tier (firstPriceId subscription)
  | _ => none

def WebhookEvent.sets (event : WebhookEvent) : Option SubscriptionTier :=
  if event.Ends then some .free else event.activates prices

def lastSetting (ds : List Delivery) : Option Delivery := (ds.filter fun d => (d.event.sets prices).isSome).getLast?

/-- The delivery is the end of a subscription where none is left, or activates what the subscription that is left is
billed; `initial` is the tier where there is no such delivery. -/
def Fits (lives : List SubscriptionLife) (initial : SubscriptionTier) : Option Delivery → Prop
  | none => Follows prices lives initial
  | some d =>
    if d.event.Ends then ∀ life ∈ lives, ¬ life.Live
    else (∃ life ∈ lives, life.Live) ∧
      ∀ life ∈ lives, life.Live → tierForPriceId prices life.latest.priceId = d.event.activates prices

instance (lives : List SubscriptionLife) (initial : SubscriptionTier) : DecidablePred (Fits prices lives initial)
  | none => inferInstanceAs (Decidable (Follows prices lives initial))
  | some d => inferInstanceAs (Decidable (if d.event.Ends then ∀ life ∈ lives, ¬ life.Live
    else (∃ life ∈ lives, life.Live) ∧
      ∀ life ∈ lives, life.Live → tierForPriceId prices life.latest.priceId = d.event.activates prices))

def LastFits (lives : List SubscriptionLife) (initial : SubscriptionTier) (ds : List Delivery) : Prop :=
  Fits prices lives initial (lastSetting prices ds)

instance (lives : List SubscriptionLife) (initial : SubscriptionTier) (ds : List Delivery) :
    Decidable (LastFits prices lives initial ds) :=
  inferInstanceAs (Decidable (Fits prices lives initial (lastSetting prices ds)))

end Effects

section Steps

variable {cfg : WebhookConfig} {userId : ℤ} {db : Database}

theorem storedTier_atTier (tier : SubscriptionTier) (customer subscription : Option String) :
    storedTier userId (db.atTier userId tier customer subscription) = tier := by
  unfold storedTier Database.atTier upserted
  rcases hrow : db.subscriptions userId with _ | row
  · simp [Database.setSubscription, SubscriptionRow.fresh]
  · simp [Database.setSubscription, SubscriptionRow.assign]

theorem storedTier_activated (now : Instant) (tier : SubscriptionTier) (customer subscription : Option String) :
    storedTier userId (db.activated now userId tier customer subscription) = tier := by
  unfold Database.activated
  split
  · exact storedTier_atTier tier customer subscription
  · exact storedTier_atTier tier customer subscription
  · exact storedTier_atTier tier customer subscription

theorem storedTier_activation (now : Instant) (tierName customer subscription priceId : Option String) :
    storedTier userId (db.activation cfg.prices now userId tierName customer subscription priceId) =
      (activationTier cfg.prices tierName priceId).getD (storedTier userId db) := by
  unfold Database.activation activationTier
  rcases resolveActivationTier cfg.prices tierName priceId with err | tier
  · rfl
  · exact storedTier_activated now tier customer subscription

/-- **One delivery** sets the tier that its event sets, whatever was stored. -/
theorem storedTier_deliver {life : SubscriptionLife} {d : Delivery} (h : d.event ∈ life.events userId) :
    storedTier userId (deliver cfg db d) = (d.event.sets cfg.prices).getD (storedTier userId db) := by
  rw [deliver_eq]
  obtain ⟨now, event, retrieved⟩ := d
  unfold SubscriptionLife.events at h
  simp only [List.mem_append, Option.mem_toList, Option.map_eq_some_iff, List.mem_singleton, List.mem_map] at h
  rcases h with ((⟨⟨sessionId, status⟩, _, rfl⟩ | rfl) | ⟨version, _, rfl⟩) | ⟨version, _, rfl⟩
  · show storedTier userId (db.afterCheckout cfg now (life.checkoutSession userId sessionId status)) = _
    have hkind : ¬ (life.checkoutSession userId sessionId status).metadata.kind = some "credit_purchase" := by
      show ¬ some "subscription" = some "credit_purchase"
      decide
    have huser : (life.checkoutSession userId sessionId status).metadata.userId = some userId := rfl
    unfold Database.afterCheckout
    by_cases hunpaid : (life.checkoutSession userId sessionId status).paymentStatus = some "unpaid"
    · rw [if_pos hunpaid]
      simp [WebhookEvent.sets, WebhookEvent.Ends, WebhookEvent.activates, hunpaid]
    · rw [if_neg hunpaid, huser]
      dsimp only
      rw [if_neg hkind, storedTier_activation]
      simp [WebhookEvent.sets, WebhookEvent.Ends, WebhookEvent.activates, hunpaid]
  · rfl
  · show storedTier userId (db.afterUpdate cfg now (life.shown userId version)) = _
    have huser : (life.shown userId version).userId = some userId := rfl
    unfold Database.afterUpdate
    rw [huser]
    dsimp only
    by_cases hcanceled : (life.shown userId version).status = some "canceled"
    · rw [if_pos hcanceled, storedTier_atTier]
      simp [WebhookEvent.sets, WebhookEvent.Ends, hcanceled]
    · rw [if_neg hcanceled, storedTier_activation]
      simp [WebhookEvent.sets, WebhookEvent.Ends, WebhookEvent.activates, hcanceled]
  · simp only [Database.delivered, Database.afterDeletion, SubscriptionLife.shown]
    rw [storedTier_atTier]
    rfl

end Steps

/-! ## What all deliveries leave -/

section Runs

variable {cfg : WebhookConfig} {userId : ℤ} {lives : List SubscriptionLife}

theorem lastSetting_sets {prices : StripePrices} {ds : List Delivery} {d : Delivery} (h : lastSetting prices ds = some d) :
    (d.event.sets prices).isSome := by
  simpa using (List.mem_filter.1 (List.mem_of_getLast? h)).2

theorem storedTier_deliverAll : ∀ (ds : List Delivery) (db : Database),
    (∀ d ∈ ds, ∃ life ∈ lives, d.event ∈ life.events userId) →
    storedTier userId (deliverAll cfg db ds) =
      ((lastSetting cfg.prices ds).bind fun d => d.event.sets cfg.prices).getD (storedTier userId db)
  | [], _, _ => rfl
  | d :: ds, db, h => by
    obtain ⟨life, _, hevent⟩ := h d (List.mem_cons_self ..)
    have ih := storedTier_deliverAll ds (deliver cfg db d) fun d' hd' => h d' (List.mem_cons_of_mem _ hd')
    have hfold : deliverAll cfg db (d :: ds) = deliverAll cfg (deliver cfg db d) ds := rfl
    rw [hfold, ih, storedTier_deliver hevent]
    rcases hsets : d.event.sets cfg.prices with _ | tier
    · have hskip : lastSetting cfg.prices (d :: ds) = lastSetting cfg.prices ds := by
        rw [lastSetting, List.filter_cons_of_neg (by simp [hsets])]
        rfl
      rw [hskip]
      rfl
    · have hkeep : lastSetting cfg.prices (d :: ds) = some ((lastSetting cfg.prices ds).getD d) := by
        rw [lastSetting, List.filter_cons_of_pos (by simp [hsets]), List.getLast?_cons]
        rfl
      rw [hkeep]
      rcases hlast : lastSetting cfg.prices ds with _ | last
      · simp [hsets]
      · obtain ⟨tier', htier'⟩ := Option.isSome_iff_exists.1 (lastSetting_sets hlast)
        simp [htier']

theorem tierForPriceId_ne_free (prices : StripePrices) (priceId : Option String) :
    tierForPriceId prices priceId ≠ some .free := by
  unfold tierForPriceId
  split
  · simp
  · split_ifs <;> simp

theorem activationTier_ne_free (prices : StripePrices) (tierName priceId : Option String) :
    activationTier prices tierName priceId ≠ some .free := by
  unfold activationTier resolveActivationTier
  rcases hprice : tierForPriceId prices priceId with _ | tier
  · rcases hname : tierByName ((tierName.getD "").toLower) with _ | tier
    · simp [Except.toOption]
    · have hne : tier ≠ .free := by
        intro hfree
        subst hfree
        unfold tierByName at hname
        split at hname <;> cases hname
      simpa [Except.toOption] using hne
  · have hne := tierForPriceId_ne_free prices priceId
    rw [hprice] at hne
    simpa [Except.toOption] using hne

theorem activates_ne_free (prices : StripePrices) (event : WebhookEvent) : event.activates prices ≠ some .free := by
  unfold WebhookEvent.activates
  split
  · split_ifs
    · simp
    · exact activationTier_ne_free _ _ _
  · split_ifs
    · simp
    · exact activationTier_ne_free _ _ _
  · simp

theorem follows_free_iff {prices : StripePrices} : Follows prices lives .free ↔ ∀ life ∈ lives, ¬ life.Live := by
  constructor
  · rintro ⟨hlive, _⟩ life hlife h
    exact tierForPriceId_ne_free _ _ (hlive life hlife h)
  · intro h
    exact ⟨fun life hlife hl => absurd hl (h life hlife), fun _ => rfl⟩

theorem follows_paid_iff {prices : StripePrices} {tier : SubscriptionTier} (hpaid : tier ≠ .free) :
    Follows prices lives tier ↔ (∃ life ∈ lives, life.Live) ∧
      ∀ life ∈ lives, life.Live → tierForPriceId prices life.latest.priceId = some tier := by
  constructor
  · rintro ⟨hlive, hnone⟩
    refine ⟨?_, hlive⟩
    by_contra h
    refine hpaid (hnone fun life hlife hl => h ⟨life, hlife, hl⟩)
  · rintro ⟨⟨life, hlife, hl⟩, hlive⟩
    exact ⟨hlive, fun hnone => absurd hl (hnone life hlife)⟩

/-- **Once all events are delivered**, in any order, the stored tier is the billed tier of the subscription that is left, or
FREE if none is, exactly if the last delivery that sets a tier is the end of a subscription and none is left, or activates
what the one that is left is billed. -/
theorem tier_follows_iff (cfg : WebhookConfig) (userId : ℤ) (db : Database) (lives : List SubscriptionLife)
    (ds : List Delivery) (h : Delivers userId lives ds) :
    Follows cfg.prices lives (storedTier userId (deliverAll cfg db ds)) ↔
      LastFits cfg.prices lives (storedTier userId db) ds := by
  rw [@storedTier_deliverAll _ _ lives ds db fun d hd => (h d.event).1 ⟨d, hd, rfl⟩]
  unfold LastFits
  rcases hlast : lastSetting cfg.prices ds with _ | d
  · exact Iff.rfl
  · have hsome := lastSetting_sets hlast
    simp only [Option.bind_some, Fits]
    unfold WebhookEvent.sets at hsome ⊢
    by_cases hends : d.event.Ends
    · rw [if_pos hends, if_pos hends]
      exact follows_free_iff
    · rw [if_neg hends] at hsome
      rw [if_neg hends, if_neg hends]
      obtain ⟨tier, htier⟩ := Option.isSome_iff_exists.1 hsome
      rw [htier]
      refine follows_paid_iff fun hfree => activates_ne_free cfg.prices d.event ?_
      rw [htier]
      exact congrArg some hfree

theorem delivers_iff {ds : List Delivery} :
    Delivers userId lives ds ↔ (∀ d ∈ ds, ∃ life ∈ lives, d.event ∈ life.events userId) ∧
      ∀ life ∈ lives, ∀ event ∈ life.events userId, ∃ d ∈ ds, d.event = event := by
  constructor
  · intro h
    exact ⟨fun d hd => (h d.event).1 ⟨d, hd, rfl⟩, fun life hlife event he => (h event).2 ⟨life, hlife, he⟩⟩
  · rintro ⟨hfrom, hall⟩ event
    constructor
    · rintro ⟨d, hd, rfl⟩
      exact hfrom d hd
    · rintro ⟨life, hlife, he⟩
      exact hall life hlife event he

end Runs

/-! ## Two subscriptions -/

section Concrete

def somePrices : StripePrices := ⟨"price_pro", "price_pro_plus", "price_enterprise"⟩

def proVersion (status : String) : SubscriptionVersion := ⟨status, some "pro", some "price_pro"⟩

/-- A PRO subscription that came and went. -/
def oldLife : SubscriptionLife :=
  ⟨"sub_1", some "cus_1", some ("cs_1", "paid"), proVersion "incomplete", [proVersion "active"], some (proVersion "canceled")⟩

def newLife : SubscriptionLife :=
  ⟨"sub_2", some "cus_1", some ("cs_2", "paid"), ⟨"active", some "pro_plus", some "price_pro_plus"⟩, [], none⟩

def noRows : Database := ⟨fun _ => none, fun _ _ => none, []⟩

def delivering (events : List WebhookEvent) (places : List ℕ) : List Delivery :=
  places.filterMap fun i => (events[i]?).map fun event => ⟨0, event, none⟩

/-- One subscription after the other, each event in its turn and one of them twice. -/
def inTurn : List Delivery := delivering ((oldLife.events 7) ++ newLife.events 7) [1, 0, 2, 2, 3, 5, 4]

theorem tier_follows_inTurn : Follows somePrices [oldLife, newLife] (storedTier 7 (deliverAll ⟨somePrices, true⟩ noRows inTurn)) :=
  (tier_follows_iff ⟨somePrices, true⟩ 7 noRows [oldLife, newLife] inTurn
    (delivers_iff.2 (by decide +kernel))).2 (by
      show LastFits somePrices [oldLife, newLife] (storedTier 7 noRows) inTurn
      decide +kernel)

/-- The old subscription is deleted after the new one was paid for. -/
def deletedLast : List Delivery := delivering ((oldLife.events 7) ++ newLife.events 7) [1, 0, 2, 5, 4, 3]

/-- The update of the only subscription arrives after its deletion. -/
def updatedLast : List Delivery := delivering (oldLife.events 7) [1, 0, 3, 2]

/-- The deletion of the old subscription downgrades a user whose new one is active, and a late update activates a
subscription that is gone. -/
theorem tier_does_not_follow :
    Delivers 7 [oldLife, newLife] deletedLast ∧
    storedTier 7 (deliverAll ⟨somePrices, true⟩ noRows deletedLast) = .free ∧
    ¬ Follows somePrices [oldLife, newLife] (storedTier 7 (deliverAll ⟨somePrices, true⟩ noRows deletedLast)) ∧
    Delivers 7 [oldLife] updatedLast ∧
    storedTier 7 (deliverAll ⟨somePrices, true⟩ noRows updatedLast) = .pro ∧
    ¬ Follows somePrices [oldLife] (storedTier 7 (deliverAll ⟨somePrices, true⟩ noRows updatedLast)) := by
  refine ⟨delivers_iff.2 (by decide +kernel), by decide +kernel, by decide +kernel, delivers_iff.2 (by decide +kernel),
    by decide +kernel, by decide +kernel⟩

end Concrete

end Transform.Billing
