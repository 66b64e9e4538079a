import Transform.Billing.Webhooks

/-!
# Billing.PaymentMethods — the saved cards of a customer

The default card is read from the subscription and from the customer.  The lists of the API pass the subscription on; the
listing that `_require_owned_payment_method` takes for the check of a removal does not.

* `cards_iff`: when a removal spares the card of the next renewal, and when a list marks that card.
-/

namespace Transform.Billing

open Lib Conversions

/-! ## Stripe -/

section Stripe

structure StripeCard where
  id : String
  brand : Option String
  last4 : Option String
  expMonth : Option ℕ
  expYear : Option ℕ
  wallet : Option String
  id_ne : id ≠ ""
  deriving DecidableEq, Repr

/-- A default payment method, by its id or expanded. -/
inductive Expandable
  | id (id : String)
  | object (id : Option String)
  deriving DecidableEq, Repr

/-- What Stripe holds of a customer with a subscription; the cards stand in the order of the API. -/
structure StripeAccount where
  cards : List StripeCard
  invoiceDefault : Option Expandable
  subscriptionDefault : Option Expandable
  deriving DecidableEq, Repr

/-- The calls of one listing that Stripe answers; the others raise. -/
structure Answers where
  customers : Bool
  subscriptions : Bool
  paymentMethods : Bool
  deriving DecidableEq, Repr

/-- What a list call without a `limit` returns at most. -/
def defaultPage : ℕ := 10

end Stripe

/-! ## The service -/

section Service

structure SavedPaymentMethod where
  id : String
  brand : String
  last4 : String
  expMonth : ℕ
  expYear : ℕ
  isDefault : Bool
  wallet : Option String
  deriving DecidableEq, Repr

/-- `_payment_method_id`. -/
def paymentMethodId : Option Expandable → Option String
  | none => none
  | some (.id id) => some id
  | some (.object id) => id

def toSavedPaymentMethod (defaultId : Option String) (method : StripeCard) : SavedPaymentMethod where
  id := method.id
  brand := method.brand.getD "unknown"
  last4 := method.last4.getD ""
  expMonth := method.expMonth.getD 0
  expYear := method.expYear.getD 0
  isDefault := method.id ≠ "" && some method.id = defaultId
  wallet := truthy method.wallet

/-- `_subscription_default_payment_method`; a failure is swallowed. -/
def subscriptionDefaultPaymentMethod (account : StripeAccount) (answers : Answers) : Option String :=
  if answers.subscriptions then paymentMethodId account.subscriptionDefault else none

/-- The card that a listing takes for the default. -/
def defaultIdOf (account : StripeAccount) (answers : Answers) (subscriptionId : Option String) : Option String :=
  let defaultId := paymentMethodId account.invoiceDefault
  match truthy subscriptionId with
  | none => defaultId
  | some _ =>
    match truthy (subscriptionDefaultPaymentMethod account answers) with
    | none => defaultId
    | some subscriptionDefaultId => some subscriptionDefaultId

/-- `list_payment_methods`. -/
def listPaymentMethods (enabled : Bool) (account : StripeAccount) (answers : Answers) (subscriptionId : Option String) :
    List SavedPaymentMethod :=
  if enabled && answers.customers && answers.paymentMethods then
    (account.cards.take defaultPage).map (toSavedPaymentMethod (defaultIdOf account answers subscriptionId))
  else []

end Service

/-! ## The handlers -/

section Handlers

structure HttpError where
  status : ℕ
  detail : String
  deriving DecidableEq, Repr

structure PaymentMethodList where
  methods : List SavedPaymentMethod
  enabled : Bool
  deriving DecidableEq, Repr

/-- Whether Stripe is configured, and the caller's row. -/
structure CardApi where
  enabled : Bool
  row : Option SubscriptionRow

def CardApi.customerId (api : CardApi) : Option String := truthy (api.row.bind (·.stripeCustomerId))

def CardApi.subscriptionId (api : CardApi) : Option String := api.row.bind (·.stripeSubscriptionId)

def defaultPaymentMethods (api : CardApi) (account : StripeAccount) (answers : Answers) : PaymentMethodList :=
  match api.customerId with
  | none => ⟨[], false⟩
  | some _ => ⟨listPaymentMethods api.enabled account answers api.subscriptionId, true⟩

/-- The cards of the caller, if the one that is named is among them. -/
def requireOwnedPaymentMethod (api : CardApi) (account : StripeAccount) (answers : Answers) (paymentMethodId : String) :
    Except HttpError (List SavedPaymentMethod) :=
  if !api.enabled then .error ⟨501, "Stripe integration is not configured."⟩
  else
    match api.customerId with
    | none => .error ⟨404, "No Stripe customer found for this account"⟩
    | some _ =>
      let methods := listPaymentMethods api.enabled account answers none
      if paymentMethodId ∈ methods.map (·.id) then .ok methods else .error ⟨404, "Payment method not found"⟩

inductive CardRequest
  | list
  | setDefault (paymentMethodId : String)
  | remove (paymentMethodId : String)
  deriving DecidableEq, Repr

/-- What Stripe answers in the course of a request: to the two listings, to the updates, and to the detachment, with the
account that a detachment leaves. -/
structure Exchange where
  owned : Answers
  updateCustomer : Bool
  updateSubscription : Bool
  detach : Bool
  detached : StripeAccount → String → StripeAccount
  shown : Answers

/-- What a request has done: the card whose detachment was requested, the account afterwards, and the response. -/
structure CardOutcome where
  detaching : Option String
  account : StripeAccount
  response : Except HttpError PaymentMethodList

/-- `set_default_payment_method` of the service. -/
def setDefaultOnStripe (account : StripeAccount) (e : Exchange) (paymentMethodId : String)
    (subscriptionId : Option String) : Bool × StripeAccount :=
  if !e.updateCustomer then (false, account)
  else
    let account := { account with invoiceDefault := some (.id paymentMethodId) }
    match truthy subscriptionId with
    | none => (true, account)
    | some _ =>
      if e.updateSubscription then (true, { account with subscriptionDefault := some (.id paymentMethodId) })
      else (false, account)

def setDefaultPaymentMethod (api : CardApi) (account : StripeAccount) (e : Exchange) (paymentMethodId : String) :
    CardOutcome :=
  match requireOwnedPaymentMethod api account e.owned paymentMethodId with
  | .error err => ⟨none, account, .error err⟩
  | .ok _ =>
    match setDefaultOnStripe account e paymentMethodId api.subscriptionId with
    | (false, account) => ⟨none, account, .error ⟨502, "Default payment method could not be updated"⟩⟩
    | (true, account) => ⟨none, account, .ok (defaultPaymentMethods api account e.shown)⟩

def removePaymentMethod (api : CardApi) (account : StripeAccount) (e : Exchange) (paymentMethodId : String) :
    CardOutcome :=
  match requireOwnedPaymentMethod api account e.owned paymentMethodId with
  | .error err => ⟨none, account, .error err⟩
  | .ok methods =>
    let isDefault := ((methods.find? (·.id = paymentMethodId)).map (·.isDefault)).getD false
    if isDefault && (truthy api.subscriptionId).isSome then
      ⟨none, account, .error ⟨409, "This is the default payment method for an active subscription. " ++
        "Set another card as default before removing it."⟩⟩
    else if !e.detach then ⟨some paymentMethodId, account, .error ⟨502, "Payment method could not be removed"⟩⟩
    else
      let account := e.detached account paymentMethodId
      ⟨some paymentMethodId, account, .ok (defaultPaymentMethods api account e.shown)⟩

def handleCards (api : CardApi) (account : StripeAccount) (e : Exchange) : CardRequest → CardOutcome
  | .list => ⟨none, account, .ok (if api.enabled then defaultPaymentMethods api account e.shown else ⟨[], false⟩)⟩
  | .setDefault paymentMethodId => setDefaultPaymentMethod api account e paymentMethodId
  | .remove paymentMethodId => removePaymentMethod api account e paymentMethodId

end Handlers

/-! ## The card of the next renewal -/

section Renewal

variable {api : CardApi} {account : StripeAccount} {answers : Answers} {e : Exchange} {id : String}
  {request : CardRequest}

/-- The subscription's own default, and the customer's where it has none. -/
def renewalCard (api : CardApi) (account : StripeAccount) : Option String :=
  ((truthy api.subscriptionId).bind fun _ => truthy (paymentMethodId account.subscriptionDefault)).or
    (paymentMethodId account.invoiceDefault)

/-- While there is a subscription, the card of its next renewal is not detached. -/
def SparesRenewal (api : CardApi) (account : StripeAccount) (e : Exchange) (request : CardRequest) : Prop :=
  truthy api.subscriptionId ≠ none →
    ∀ id, (handleCards api account e request).detaching = some id → renewalCard api account ≠ some id

/-- A card is marked exactly if it is that of the next renewal. -/
def Badged (api : CardApi) (account : StripeAccount) (list : PaymentMethodList) : Prop :=
  ∀ method ∈ list.methods, method.isDefault = true ↔ renewalCard api account = some method.id

/-- The card to be removed is listed, and it is the subscription's default and not the customer's. -/
structure PinnedElsewhere (api : CardApi) (account : StripeAccount) (answers : Answers) (id : String) : Prop where
  enabled : api.enabled = true
  customer : api.customerId ≠ none
  subscription : truthy api.subscriptionId ≠ none
  answered : answers.customers = true ∧ answers.paymentMethods = true
  listed : ∃ card ∈ account.cards.take defaultPage, card.id = id
  pinned : paymentMethodId account.subscriptionDefault = some id
  other : paymentMethodId account.invoiceDefault ≠ some id

/-- The subscription is not read for a list that holds its default card, which is not the customer's, or the customer's. -/
structure Unread (api : CardApi) (account : StripeAccount) (answers : Answers) : Prop where
  enabled : api.enabled = true
  customer : api.customerId ≠ none
  subscription : truthy api.subscriptionId ≠ none
  answered : answers.customers = true ∧ answers.paymentMethods = true
  unread : answers.subscriptions = false
  disagree : ∃ pinned, truthy (paymentMethodId account.subscriptionDefault) = some pinned ∧
    paymentMethodId account.invoiceDefault ≠ some pinned ∧
    ∃ card ∈ account.cards.take defaultPage, card.id = pinned ∨ paymentMethodId account.invoiceDefault = some card.id

theorem toSavedPaymentMethod_isDefault (defaultId : Option String) (card : StripeCard) :
    (toSavedPaymentMethod defaultId card).isDefault = true ↔ defaultId = some card.id := by
  show (decide (card.id ≠ "") && decide (some card.id = defaultId)) = true ↔ _
  rw [Bool.and_eq_true, decide_eq_true_eq, decide_eq_true_eq, and_iff_right card.id_ne]
  exact eq_comm

theorem defaultIdOf_none : defaultIdOf account answers none = paymentMethodId account.invoiceDefault := rfl

theorem defaultIdOf_read (h : answers.subscriptions = true) :
    defaultIdOf account answers api.subscriptionId = renewalCard api account := by
  unfold defaultIdOf renewalCard subscriptionDefaultPaymentMethod
  rw [if_pos h]
  cases truthy api.subscriptionId with
  | none => rfl
  | some subscriptionId =>
    cases truthy (paymentMethodId account.subscriptionDefault) <;> rfl

theorem defaultIdOf_unread (h : answers.subscriptions = false) (subscriptionId : Option String) :
    defaultIdOf account answers subscriptionId = paymentMethodId account.invoiceDefault := by
  unfold defaultIdOf subscriptionDefaultPaymentMethod
  rw [h, if_neg Bool.false_ne_true]
  cases truthy subscriptionId <;> rfl

theorem mem_listPaymentMethods {enabled : Bool} {subscriptionId : Option String} {method : SavedPaymentMethod} :
    method ∈ listPaymentMethods enabled account answers subscriptionId ↔
      (enabled = true ∧ answers.customers = true ∧ answers.paymentMethods = true) ∧
        ∃ card ∈ account.cards.take defaultPage,
          toSavedPaymentMethod (defaultIdOf account answers subscriptionId) card = method := by
  unfold listPaymentMethods
  by_cases h : (enabled && answers.customers && answers.paymentMethods) = true
  · rw [if_pos h, List.mem_map]
    rw [Bool.and_eq_true, Bool.and_eq_true, and_assoc] at h
    exact (and_iff_right h).symm
  · rw [if_neg h]
    refine iff_of_false List.not_mem_nil ?_
    rintro ⟨⟨henabled, hcustomers, hmethods⟩, -⟩
    exact h (by rw [henabled, hcustomers, hmethods]; rfl)

theorem truthy_eq_some {value : Option String} {text : String} :
    truthy value = some text ↔ value = some text ∧ text ≠ "" := by
  unfold truthy
  rw [Option.filter_eq_some_iff, decide_eq_true_eq]

theorem requireOwned_eq_ok {methods : List SavedPaymentMethod} :
    requireOwnedPaymentMethod api account answers id = .ok methods ↔
      api.enabled = true ∧ api.customerId ≠ none ∧ id ∈ methods.map (·.id) ∧
        listPaymentMethods api.enabled account answers none = methods := by
  unfold requireOwnedPaymentMethod
  cases api.enabled with
  | false => exact iff_of_false nofun fun h => Bool.false_ne_true h.1
  | true =>
    rw [Bool.not_true, if_neg Bool.false_ne_true]
    cases api.customerId with
    | none => exact iff_of_false nofun fun h => h.2.1 rfl
    | some customerId =>
      dsimp only
      split_ifs with hmem
      · constructor
        · intro h
          obtain rfl := Except.ok.inj h
          exact ⟨rfl, nofun, hmem, rfl⟩
        · rintro ⟨-, -, -, rfl⟩
          rfl
      · refine iff_of_false nofun ?_
        rintro ⟨-, -, hmem', rfl⟩
        exact hmem hmem'

theorem target_isDefault {methods : List SavedPaymentMethod}
    (hmethods : listPaymentMethods true account answers none = methods) (hmem : id ∈ methods.map (·.id)) :
    ((methods.find? (·.id = id)).map (·.isDefault)).getD false = true ↔
      paymentMethodId account.invoiceDefault = some id := by
  cases hfind : methods.find? (·.id = id) with
  | none =>
    obtain ⟨method, hmethod, hid⟩ := List.mem_map.mp hmem
    have hnot := List.find?_eq_none.mp hfind method hmethod
    exact absurd (decide_eq_true hid) hnot
  | some method =>
    have hid : method.id = id := by simpa using List.find?_some hfind
    have hlisted := List.mem_of_find?_eq_some hfind
    rw [← hmethods] at hlisted
    obtain ⟨-, card, -, rfl⟩ := mem_listPaymentMethods.mp hlisted
    show (toSavedPaymentMethod _ card).isDefault = true ↔ _
    rw [toSavedPaymentMethod_isDefault, defaultIdOf_none, ← hid]
    rfl

theorem mem_listed : id ∈ (listPaymentMethods true account answers none).map (·.id) ↔
    (answers.customers = true ∧ answers.paymentMethods = true) ∧
      ∃ card ∈ account.cards.take defaultPage, card.id = id := by
  rw [List.mem_map]
  constructor
  · rintro ⟨method, hmethod, rfl⟩
    obtain ⟨⟨-, hanswered⟩, card, hcard, rfl⟩ := mem_listPaymentMethods.mp hmethod
    exact ⟨hanswered, card, hcard, rfl⟩
  · rintro ⟨hanswered, card, hcard, rfl⟩
    exact ⟨_, mem_listPaymentMethods.mpr ⟨⟨rfl, hanswered⟩, card, hcard, rfl⟩, rfl⟩

theorem detaching_iff {id' : String} : (removePaymentMethod api account e id).detaching = some id' ↔
    id = id' ∧ api.enabled = true ∧ api.customerId ≠ none ∧
      ((e.owned.customers = true ∧ e.owned.paymentMethods = true) ∧
        ∃ card ∈ account.cards.take defaultPage, card.id = id) ∧
      ¬ (paymentMethodId account.invoiceDefault = some id ∧ truthy api.subscriptionId ≠ none) := by
  unfold removePaymentMethod
  cases howned : requireOwnedPaymentMethod api account e.owned id with
  | error err =>
    refine iff_of_false nofun ?_
    rintro ⟨-, henabled, hcustomer, hlisted, -⟩
    have hok := requireOwned_eq_ok.mpr ⟨henabled, hcustomer, henabled ▸ mem_listed.mpr hlisted, rfl⟩
    rw [howned] at hok
    cases hok
  | ok methods =>
    obtain ⟨henabled, hcustomer, hmem, hmethods⟩ := requireOwned_eq_ok.mp howned
    rw [henabled] at hmethods
    have htarget := target_isDefault hmethods hmem
    have hlisted := mem_listed.mp (hmethods ▸ hmem)
    have hrefusal : (((methods.find? (·.id = id)).map (·.isDefault)).getD false && (truthy api.subscriptionId).isSome)
        = true ↔ paymentMethodId account.invoiceDefault = some id ∧ truthy api.subscriptionId ≠ none := by
      rw [Bool.and_eq_true, htarget, Option.isSome_iff_ne_none]
    dsimp only
    split_ifs with hrefused hdetach
    · exact iff_of_false nofun fun h => h.2.2.2.2 (hrefusal.mp hrefused)
    · rw [Option.some_inj]
      exact (and_iff_left ⟨henabled, hcustomer, hlisted, fun h => hrefused (hrefusal.mpr h)⟩).symm
    · rw [Option.some_inj]
      exact (and_iff_left ⟨henabled, hcustomer, hlisted, fun h => hrefused (hrefusal.mpr h)⟩).symm

theorem spares_remove_iff : SparesRenewal api account e (.remove id) ↔ ¬ PinnedElsewhere api account e.owned id := by
  constructor
  · intro h hpinned
    obtain ⟨card, hcard, rfl⟩ := hpinned.listed
    have hdetaching : (handleCards api account e (.remove card.id)).detaching = some card.id :=
      detaching_iff.mpr ⟨rfl, hpinned.enabled, hpinned.customer, ⟨hpinned.answered, hpinned.listed⟩,
        fun hboth => hpinned.other hboth.1⟩
    refine h hpinned.subscription card.id hdetaching ?_
    unfold renewalCard
    rw [truthy_eq_some.mpr ⟨hpinned.pinned, card.id_ne⟩]
    cases hsub : truthy api.subscriptionId with
    | none => exact absurd hsub hpinned.subscription
    | some subscriptionId => rfl
  · intro h hsub id' hdetaching hrenewal
    obtain ⟨rfl, henabled, hcustomer, ⟨hanswered, hlisted⟩, hrefused⟩ := detaching_iff.mp hdetaching
    have hother : paymentMethodId account.invoiceDefault ≠ some id := fun hdefault => hrefused ⟨hdefault, hsub⟩
    refine h ⟨henabled, hcustomer, hsub, hanswered, hlisted, ?_, hother⟩
    unfold renewalCard at hrenewal
    cases htext : truthy api.subscriptionId with
    | none => exact absurd htext hsub
    | some subscriptionId =>
      rw [htext, Option.bind_some] at hrenewal
      cases hpin : truthy (paymentMethodId account.subscriptionDefault) with
      | none =>
        rw [hpin] at hrenewal
        exact absurd hrenewal hother
      | some pinned =>
        rw [hpin] at hrenewal
        obtain rfl := Option.some.inj hrenewal
        exact (truthy_eq_some.mp hpin).1

/-- A list marks the card of the next renewal unless the subscription was not read and the defaults differ. -/
theorem badged_iff : Badged api account (defaultPaymentMethods api account answers) ↔ ¬ Unread api account answers := by
  unfold defaultPaymentMethods
  cases hcustomer : api.customerId with
  | none => exact iff_of_true (fun _ => nofun) fun h => h.customer hcustomer
  | some customerId =>
    have hmarks : Badged api account ⟨listPaymentMethods api.enabled account answers api.subscriptionId, true⟩ ↔
        (api.enabled = true ∧ answers.customers = true ∧ answers.paymentMethods = true →
          ∀ card ∈ account.cards.take defaultPage, (defaultIdOf account answers api.subscriptionId = some card.id ↔
            renewalCard api account = some card.id)) := by
      constructor
      · intro h hanswered card hcard
        rw [← toSavedPaymentMethod_isDefault]
        exact h _ (mem_listPaymentMethods.mpr ⟨hanswered, card, hcard, rfl⟩)
      · intro h method hmethod
        obtain ⟨hanswered, card, hcard, rfl⟩ := mem_listPaymentMethods.mp hmethod
        rw [toSavedPaymentMethod_isDefault]
        exact h hanswered card hcard
    rw [hmarks]
    cases hread : answers.subscriptions with
    | true =>
      rw [defaultIdOf_read hread]
      refine iff_of_true (fun _ _ _ => Iff.rfl) ?_
      intro h
      exact Bool.noConfusion (hread.symm.trans h.unread)
    | false =>
      rw [defaultIdOf_unread hread, renewalCard]
      cases hsub : truthy api.subscriptionId with
      | none => exact iff_of_true (fun _ _ _ => Iff.rfl) fun h => h.subscription hsub
      | some subscriptionId =>
        rw [Option.bind_some]
        cases hpin : truthy (paymentMethodId account.subscriptionDefault) with
        | none =>
          refine iff_of_true (fun _ _ _ => Iff.rfl) ?_
          intro h
          obtain ⟨pinned, hpinned, -⟩ := h.disagree
          rw [hpin] at hpinned
          cases hpinned
        | some pinned =>
          rw [Option.some_or]
          constructor
          · rintro h ⟨henabled, -, -, hanswered, -, pinned', hpinned, hother, card, hcard, hor⟩
            obtain rfl := Option.some.inj (hpin.symm.trans hpinned)
            have hsame := h ⟨henabled, hanswered⟩ card hcard
            rcases hor with rfl | hinvoice
            · exact hother (hsame.mpr rfl)
            · exact hother (hinvoice.trans (hsame.mp hinvoice).symm)
          · intro h hanswered card hcard
            by_cases hinvoice : paymentMethodId account.invoiceDefault = some pinned
            · rw [hinvoice]
            · -- neither of the two is a card of the list
              have hnot : ¬ (card.id = pinned ∨ paymentMethodId account.invoiceDefault = some card.id) := by
                intro hor
                refine h ⟨hanswered.1, ?_, ?_, hanswered.2, hread, pinned, hpin, hinvoice, card, hcard, hor⟩
                · rw [hcustomer]
                  nofun
                · rw [hsub]
                  nofun
              refine iff_of_false (fun hdefault => hnot (Or.inr hdefault)) ?_
              intro heq
              exact hnot (Or.inl (Option.some.inj heq).symm)

theorem setDefault_spec : (setDefaultPaymentMethod api account e id).detaching = none ∧
    ∀ list, (setDefaultPaymentMethod api account e id).response = .ok list →
      list = defaultPaymentMethods api (setDefaultPaymentMethod api account e id).account e.shown := by
  unfold setDefaultPaymentMethod
  cases requireOwnedPaymentMethod api account e.owned id with
  | error err => exact ⟨rfl, fun _ => nofun⟩
  | ok methods =>
    rcases setDefaultOnStripe account e id api.subscriptionId with ⟨_ | _, updated⟩
    · exact ⟨rfl, fun _ => nofun⟩
    · exact ⟨rfl, fun list h => (Except.ok.inj h).symm⟩

theorem remove_response {list : PaymentMethodList} (h : (removePaymentMethod api account e id).response = .ok list) :
    list = defaultPaymentMethods api (removePaymentMethod api account e id).account e.shown := by
  unfold removePaymentMethod at h ⊢
  cases howned : requireOwnedPaymentMethod api account e.owned id with
  | error err =>
    rw [howned] at h
    cases h
  | ok methods =>
    rw [howned] at h
    dsimp only at h ⊢
    split_ifs at h ⊢
    exact (Except.ok.inj h).symm

theorem response_list {list : PaymentMethodList} (h : (handleCards api account e request).response = .ok list) :
    list = defaultPaymentMethods api (handleCards api account e request).account e.shown ∨
      list = ⟨[], false⟩ ∧ api.enabled = false := by
  cases request with
  | list =>
    obtain rfl := Except.ok.inj h
    show (if api.enabled = true then _ else _) = _ ∨ _
    cases henabled : api.enabled with
    | true => exact Or.inl (if_pos rfl)
    | false => exact Or.inr ⟨if_neg Bool.false_ne_true, rfl⟩
  | setDefault id => exact Or.inl (setDefault_spec.2 list h)
  | remove id => exact Or.inl (remove_response h)

/-- **No removal detaches the card of the next renewal** unless the subscription has that card as a default of its own, and
each list that is returned marks that card unless the subscription was not read. -/
theorem cards_iff (api : CardApi) (account : StripeAccount) (e : Exchange) (request : CardRequest) :
    (SparesRenewal api account e request ↔ ∀ id, request = .remove id → ¬ PinnedElsewhere api account e.owned id) ∧
      ∀ list, (handleCards api account e request).response = .ok list →
        (Badged api (handleCards api account e request).account list ↔
          ¬ Unread api (handleCards api account e request).account e.shown) := by
  constructor
  · cases request with
    | list => exact iff_of_true (fun _ _ => nofun) (fun _ => nofun)
    | setDefault id =>
      refine iff_of_true ?_ (fun _ => nofun)
      intro _ id' hdetaching
      have hnone : (handleCards api account e (.setDefault id)).detaching = none := setDefault_spec.1
      rw [hnone] at hdetaching
      cases hdetaching
    | remove id =>
      rw [spares_remove_iff]
      constructor
      · rintro h _ ⟨⟩
        exact h
      · intro h
        exact h id rfl
  · intro list hlist
    rcases response_list hlist with rfl | ⟨rfl, hdisabled⟩
    · exact badged_iff
    · refine iff_of_true (fun _ => nofun) ?_
      intro h
      exact Bool.noConfusion (hdisabled.symm.trans h.enabled)

def sampleCard (id : String) (h : id ≠ "") : StripeCard :=
  ⟨id, some "visa", some "4242", some 12, some 2030, none, h⟩

/-- A customer with two cards; the subscription was given the second one. -/
def pinnedAccount : StripeAccount :=
  ⟨[sampleCard "pm_1" (by decide), sampleCard "pm_2" (by decide)], some (.id "pm_1"), some (.id "pm_2")⟩

def subscriber : CardApi := ⟨true, some ⟨some 7, .pro, some "cus_1", some "sub_1", 0, 0, none, false⟩⟩

/-- All calls are answered; a card that is detached is no longer there. -/
def allAnswered : Exchange where
  owned := ⟨true, true, true⟩
  updateCustomer := true
  updateSubscription := true
  detach := true
  detached account id := { account with cards := account.cards.filter (·.id ≠ id) }
  shown := ⟨true, true, true⟩

/-- The list of that customer marks the second card. -/
theorem pinned_badged :
    Badged subscriber pinnedAccount (defaultPaymentMethods subscriber pinnedAccount allAnswered.shown) :=
  ((cards_iff subscriber pinnedAccount allAnswered .list).2 _ rfl).mpr fun h => Bool.noConfusion h.unread

/-- The second card is detached on request. -/
theorem pinned_detached : ¬ SparesRenewal subscriber pinnedAccount allAnswered (.remove "pm_2") := by
  intro h
  exact h (by decide) "pm_2" (by decide +kernel) (by decide +kernel)

end Renewal

end Transform.Billing
