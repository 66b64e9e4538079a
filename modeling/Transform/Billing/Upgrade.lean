import Transform.Billing.Webhooks

/-!
# Billing.Upgrade — the requests and the activations of one upgrade

An upgrade is asked for by requests, and announced by Stripe in webhooks.  `UpgradeNotes` is what such a session has read
since it began, and `Asks` says of each commit what it writes, in terms of what was read before it: a request adds the plan
credits that it read to the stored carryover and resets the bucket, an activation sets the tier, and raises the bucket that
it read.
-/

namespace Transform.Billing

open Lib Conversions

/-! ## Jobs -/

section Jobs

inductive UpgradeJob
  | request
  | activation (d : Delivery)
  deriving DecidableEq, Repr

def Announces (cfg : WebhookConfig) (userId : ℤ) (tier : SubscriptionTier) (d : Delivery) : Prop :=
  match d.event with
  | .subscriptionUpdated subscription =>
    subscription.userId = some userId ∧ subscription.status ≠ some "canceled" ∧
      resolveActivationTier cfg.prices subscription.tier (firstPriceId subscription) = .ok tier
  | .invoicePaymentSucceeded invoice =>
    (truthy invoice.subscription).isSome ∧ cfg.secretKey = true ∧ ∃ subscription, d.retrieved = some subscription ∧
      subscription.userId = some userId ∧
      resolveActivationTier cfg.prices subscription.tier (firstPriceId subscription) = .ok tier
  | _ => False

def UpgradeJob.program (stripe : StripeService) (cfg : WebhookConfig) (userId : ℤ) (tier : ApiTier) :
    UpgradeJob → Proc BillSig Unit
  | .request => thread (changePlan stripe userId tier)
  | .activation d => thread (handleEvent cfg d.retrieved d.event)

/-- What a session has read: the row first selected, the key of the period at its first reading of the clock, the bucket at
its first and at its second reading, and Stripe's answer. -/
structure UpgradeNotes where
  row : Option (Option SubscriptionRow) := none
  key : Option String := none
  bucket : Option (Option CreditRow) := none
  staged : Option (Option CreditRow) := none
  answer : Option PlanChangeResult := none
  deriving DecidableEq, Repr

def UpgradeNotes.step (n : UpgradeNotes) : Event BillSig → UpgradeNotes
  | ⟨.selectSubscription _, .ok row, _, _⟩ => { n with row := n.row <|> some row }
  | ⟨.utcNow, .ok now, _, _⟩ => { n with key := n.key <|> some (currentPeriodKey now) }
  | ⟨.selectCredit _ _, .ok row, _, _⟩ =>
    if n.bucket.isSome then { n with staged := some row } else { n with bucket := some row }
  | ⟨.changeSubscriptionPlan _ _ _ _ _, .ok result, _, _⟩ => { n with answer := result }
  | _ => n

/-- The plan credits that were read: what is left in the bucket, or the grant of the row's tier where there is none. -/
def UpgradeNotes.plan (n : UpgradeNotes) : ℤ :=
  match n.bucket.join, n.row.join with
  | some bucket, _ => bucket.remaining
  | none, some row => monthlyGrant row.tier
  | none, none => 0

/-- The write that leaves a bucket as given, staged over the bucket as it was read last. -/
def stagedWrite (staged : Option CreditRow) (row : CreditRow) : RowWrite CreditRow :=
  match staged with
  | none => .insert row
  | some old => .update old row

variable (userId : ℤ) (tier : SubscriptionTier) (n : UpgradeNotes)

def fullBucket : CreditRow := ⟨monthlyGrant tier, monthlyGrant tier⟩

/-- A request commits the upgrade of the row that it selected, and the full bucket. -/
def RequestAsks (tx : Transaction) : Prop :=
  ∃ row result key staged, n.row = some (some row) ∧ row.tier ≠ tier ∧ n.answer = some result ∧ n.key = some key ∧
    n.bucket.isSome ∧ n.staged = some staged ∧
    tx.subscription = some (userId, .update row (row.upgraded tier n.plan result.previousPeriodEnd)) ∧
    tx.credit = some (userId, key, stagedWrite staged (fullBucket tier))

/-- An activation sets the tier of a row. -/
def TierAsks (tx : Transaction) : Prop :=
  tx.credit = none ∧ ∃ customer subscription,
    tx.subscription = some (userId, .insert (.fresh userId tier customer subscription)) ∨
    ∃ row, tx.subscription = some (userId, .update row (row.assign userId tier customer subscription))

/-- An activation raises the bucket that it read. -/
def BucketAsks (tx : Transaction) : Prop :=
  ∃ key bucket staged grant target, n.key = some key ∧ n.bucket = some bucket ∧ n.staged = some staged ∧
    (TierPolicy.forTier tier).monthlyConversionCredits = some grant ∧ regranted bucket grant = some target ∧
    bucket ≠ some target ∧ tx.subscription = none ∧ tx.credit = some (userId, key, stagedWrite staged target)

/-- What a session may ask. -/
def Asks (job : UpgradeJob) (op : BillOp) : Prop :=
  match op with
  | .selectSubscription u => u = userId
  | .selectCredit u key => u = userId ∧ n.key = some key
  | .commit tx =>
    match job with
    | .request => RequestAsks userId tier n tx
    | .activation _ => TierAsks userId tier tx ∨ BucketAsks userId tier n tx
  | _ => True

/-- Watches a session of the upgrade. -/
def upgradeMonitor (job : UpgradeJob) : Monitor BillSig UpgradeNotes where
  pre n op := Asks userId tier n job op
  rely _ _ := True
  step := UpgradeNotes.step

end Jobs

/-! ## The request -/

section Request

variable {userId : ℤ} {tier : SubscriptionTier} {job : UpgradeJob} {n : UpgradeNotes}

theorem asks_call {op : BillOp} {Q : op.Ans → UpgradeNotes → Prop} (hasks : Asks userId tier n job op)
    (hQ : ∀ a, Q a (n.step (.done op (.ok a)))) :
    wpe (upgradeMonitor userId tier job) (Billing.call op) Q (fun _ _ => True) n :=
  wpe_ask.2 ⟨hasks, fun a _ => hQ a, fun _ _ _ _ => trivial⟩

theorem asks_stageCredit {key : String} {row : CreditRow} {Q : ℤ × String × RowWrite CreditRow → UpgradeNotes → Prop}
    (hkey : n.key = some key) (hbucket : n.bucket.isSome)
    (hQ : ∀ staged, Q (userId, key, stagedWrite staged row) { n with staged := some staged }) :
    wpe (upgradeMonitor userId tier job) (stageCredit userId key row) Q (fun _ _ => True) n := by
  unfold stageCredit
  rw [wpe_bind]
  refine asks_call ⟨rfl, hkey⟩ fun staged => ?_
  have hstep : n.step (.done (.selectCredit userId key) (.ok staged)) = { n with staged := some staged } := by
    simp only [UpgradeNotes.step, Event.done, hbucket, if_true]
  rw [hstep]
  rcases staged with _ | old
  · exact hQ none
  · exact hQ (some old)

/-- What a request that was let through has read, and what Stripe answered. -/
structure LetThrough (tier : SubscriptionTier) (row : SubscriptionRow) (key : String) (result : PlanChangeResult)
    (plan : ℤ) (n : UpgradeNotes) : Prop where
  selected : n.row = some (some row)
  changes : row.tier ≠ tier
  at_key : n.key = some key
  read : n.bucket.isSome
  answered : n.answer = some result
  counted : n.plan = plan

theorem asks_applyUpgrade {row : SubscriptionRow} {key : String} {result : PlanChangeResult} {plan : ℤ}
    (h : LetThrough tier row key result plan n) :
    wpe (upgradeMonitor userId tier .request) (applyUpgrade userId key tier row plan result.previousPeriodEnd)
      (fun _ _ => True) (fun _ _ => True) n := by
  obtain ⟨hrow, htier, hkey, hbucket, hanswer, hplan⟩ := h
  unfold applyUpgrade
  rw [wpe_bind]
  refine asks_call rfl fun found => ?_
  have hfound : n.step (.done (.selectSubscription userId) (.ok found)) = n := by
    rcases n with ⟨selected, key', bucket, staged, answer⟩
    subst hrow
    rfl
  rw [hfound]
  rcases found with _ | found
  · exact trivial
  simp only [wpe_bind]
  refine asks_stageCredit hkey hbucket fun staged => ?_
  refine asks_call trivial fun id => ?_
  refine asks_call trivial fun now => ?_
  have hnow : UpgradeNotes.step (UpgradeNotes.step { n with staged := some staged } (.done .uuid4 (.ok id)))
      (.done .utcNow (.ok now)) = { n with staged := some staged } := by
    rcases n with ⟨selected, key', bucket, old, answer⟩
    subst hkey
    rfl
  rw [hnow]
  refine asks_call ?_ fun _ => trivial
  refine ⟨row, result, key, staged, hrow, htier, hanswer, hkey, hbucket, rfl, ?_, rfl⟩
  have hplan' : UpgradeNotes.plan { n with staged := some staged } = plan := hplan
  rw [hplan']

theorem checkCurrent_tier {stripe : StripeService} {requested : SubscriptionTier} {selected : Option SubscriptionRow}
    {target : PlanTarget} (h : checkCurrent stripe requested selected = .ok target) : target.row.tier ≠ requested := by
  unfold checkCurrent at h
  split at h
  · split_ifs at h with htier
    split at h
    · cases h
    · cases h
      exact htier
  · cases h

theorem asks_changePlan {stripe : StripeService} {apiTier : ApiTier} :
    wpe (upgradeMonitor userId (apiTierToDomain apiTier) .request) (changePlan stripe userId apiTier)
      (fun _ _ => True) (fun _ _ => True) {} := by
  unfold changePlan
  simp only [wpe_bind]
  refine wpe_ofExcept (fun _ _ => ?_) fun _ _ => trivial
  refine asks_call rfl fun selected => ?_
  refine wpe_ofExcept (fun target ht => ?_) fun _ _ => trivial
  have hselected := checkCurrent_ok ht
  have htier := checkCurrent_tier ht
  subst hselected
  refine asks_call trivial fun now => ?_
  -- what follows Stripe's answer, with what was read before it
  have hfinish : ∀ (bucket : Option CreditRow) (plan : ℤ),
      UpgradeNotes.plan { row := some (some target.row), bucket := some bucket } = plan →
      wpe (upgradeMonitor userId (apiTierToDomain apiTier) .request)
        (Billing.call (.changeSubscriptionPlan target.subscriptionId target.newPriceId userId (apiTierToDomain apiTier)
          (tierRank target.row.tier < tierRank (apiTierToDomain apiTier))))
        (fun result => wpe (upgradeMonitor userId (apiTierToDomain apiTier) .request)
          (finishChange userId (currentPeriodKey now) (apiTierToDomain apiTier) target.row plan result)
          (fun _ _ => True) (fun _ _ => True)) (fun _ _ => True)
        { row := some (some target.row), key := some (currentPeriodKey now), bucket := some bucket } := by
    intro bucket plan hplan
    refine asks_call trivial fun result => ?_
    unfold finishChange
    rcases result with _ | result
    · exact trivial
    dsimp only
    split_ifs
    · exact asks_applyUpgrade ⟨rfl, htier, rfl, rfl, rfl, hplan⟩
    · exact trivial
  unfold getCredit
  rw [wpe_bind]
  refine asks_call ⟨rfl, rfl⟩ fun bucket => ?_
  rcases bucket with _ | bucket
  · exact hfinish none _ rfl
  · rw [wpe_bind]
    refine wpe_ofExcept (fun credit hc => ?_) fun _ _ => trivial
    exact hfinish (some bucket) _ (credit_of_ok hc).2.symm

end Request

/-! ## The activation -/

section Activation

variable {userId : ℤ} {tier : SubscriptionTier} {d : Delivery} {n : UpgradeNotes}

theorem asks_upsert {customer subscription : Option String} {Q : Unit → UpgradeNotes → Prop} (hQ : Q () n) :
    wpe (upgradeMonitor userId tier (.activation d)) (upsertSubscription userId tier customer subscription) Q
      (fun _ _ => True) n := by
  unfold upsertSubscription
  rw [wpe_bind]
  refine asks_call trivial fun row => ?_
  rcases row with _ | row
  · exact asks_call (.inl ⟨rfl, customer, subscription, .inl rfl⟩) fun _ => hQ
  · exact asks_call (.inl ⟨rfl, customer, subscription, .inr ⟨row, rfl⟩⟩) fun _ => hQ

theorem asks_saveCredit {key : String} {bucket : Option CreditRow} {target : CreditRow} {grant : ℕ}
    (hgrant : (TierPolicy.forTier tier).monthlyConversionCredits = some grant) (hkey : n.key = some key)
    (hbucket : n.bucket = some bucket) (hraised : regranted bucket grant = some target) (hne : bucket ≠ some target) :
    wpe (upgradeMonitor userId tier (.activation d)) (saveCredit userId key target) (fun _ _ => True) (fun _ _ => True)
      n := by
  unfold saveCredit
  rw [wpe_bind]
  refine asks_stageCredit hkey (by rw [hbucket]; rfl) fun staged => ?_
  exact asks_call (.inr ⟨key, bucket, staged, grant, target, hkey, hbucket, rfl, hgrant, hraised, hne, rfl, rfl⟩)
    fun _ => trivial

theorem asks_grantPlan {grant : ℕ} (hgrant : (TierPolicy.forTier tier).monthlyConversionCredits = some grant) :
    wpe (upgradeMonitor userId tier (.activation d)) (grantPlan userId tier grant) (fun _ _ => True) (fun _ _ => True)
      {} := by
  unfold grantPlan getCredit
  rw [wpe_bind]
  refine asks_call trivial fun now => ?_
  simp only [wpe_bind]
  refine asks_call ⟨rfl, rfl⟩ fun bucket => ?_
  rcases bucket with _ | bucket
  · show wpe _ (openBucket userId (currentPeriodKey now) tier) _ _ _
    unfold openBucket
    rw [wpe_bind]
    refine wpe_ofExcept (fun credit hc => ?_) fun _ _ => trivial
    obtain ⟨k, hk, ha, hr⟩ := fromTier_ok hc
    have heq : k = grant := by
      rw [hgrant] at hk
      exact (Option.some.inj hk).symm
    subst heq
    rw [ha, hr]
    exact asks_saveCredit hgrant rfl rfl rfl (by simp)
  · simp only [wpe_bind]
    refine wpe_ofExcept (fun credit hc => ?_) fun _ _ => trivial
    obtain ⟨ha, hr⟩ := credit_of_ok hc
    have hvalid := valid_of_credit hc
    show wpe _ (raiseBucket userId (currentPeriodKey now) grant credit) _ _ _
    unfold raiseBucket
    rw [ha, hr]
    dsimp only
    by_cases hlt : bucket.allowance < grant
    · rw [if_pos (by omega)]
      refine @asks_saveCredit _ _ _ _ _ (some bucket) _ _ hgrant rfl rfl ?_ ?_
      · rw [regranted, if_pos ⟨hvalid, hlt⟩]
      · intro heq
        have hallowance : bucket.allowance = grant := congrArg CreditRow.allowance (Option.some.inj heq)
        omega
    · rw [if_neg (by omega)]
      exact trivial

theorem asks_activateOrSkip {cfg : WebhookConfig} {tierName customer subscription priceId : Option String}
    (htier : resolveActivationTier cfg.prices tierName priceId = .ok tier) :
    wpe (upgradeMonitor userId tier (.activation d)) (activateOrSkip cfg userId tierName customer subscription priceId)
      (fun _ _ => True) (fun _ _ => True) {} := by
  unfold activateOrSkip
  rw [wpe_tryCatch]
  have hactivate : wpe (upgradeMonitor userId tier (.activation d))
      (activateSubscription cfg.prices userId tierName customer subscription priceId) (fun _ _ => True) (fun _ _ => True)
      {} := by
    unfold activateSubscription
    rw [wpe_bind, htier, wpe_ofExcept_ok, wpe_bind]
    refine asks_upsert ?_
    rcases hgrant : (TierPolicy.forTier tier).monthlyConversionCredits with _ | k
    · exact trivial
    · rcases k with _ | k
      · exact trivial
      · exact asks_grantPlan hgrant
  refine wpe_mono hactivate (fun _ _ _ => trivial) fun e _ _ => ?_
  split_ifs
  · exact trivial
  · exact trivial

theorem asks_handleEvent {cfg : WebhookConfig} (h : Announces cfg userId tier d) :
    wpe (upgradeMonitor userId tier (.activation d)) (handleEvent cfg d.retrieved d.event) (fun _ _ => True)
      (fun _ _ => True) {} := by
  unfold Announces at h
  split at h
  · rename_i subscription hevent
    obtain ⟨huser, hstatus, htier⟩ := h
    rw [hevent]
    show wpe _ (handleSubscriptionUpdated cfg subscription) _ _ _
    unfold handleSubscriptionUpdated
    rw [huser]
    dsimp only
    rw [if_neg hstatus]
    exact asks_activateOrSkip htier
  · rename_i invoice hevent
    obtain ⟨hsub, hkey, subscription, hretrieved, huser, htier⟩ := h
    obtain ⟨subscriptionId, hid⟩ := Option.isSome_iff_exists.1 hsub
    rw [hevent, hretrieved]
    show wpe _ (refreshAllowanceForInvoice cfg (some subscription) invoice) _ _ _
    unfold refreshAllowanceForInvoice
    rw [hid]
    dsimp only
    rw [hkey, huser]
    exact asks_activateOrSkip htier
  · exact h.elim

end Activation

/-- **Every session** of the upgrade asks for what it has read. -/
theorem asks_program {stripe : StripeService} {cfg : WebhookConfig} {userId : ℤ} {apiTier : ApiTier} {job : UpgradeJob}
    (h : ∀ d, job = .activation d → Announces cfg userId (apiTierToDomain apiTier) d) :
    wp (upgradeMonitor userId (apiTierToDomain apiTier) job) (job.program stripe cfg userId apiTier) (fun _ _ => True)
      {} := by
  cases job with
  | request => exact wp_thread (wp_mono (fun _ _ _ => trivial) asks_changePlan)
  | activation d => exact wp_thread (wp_mono (fun _ _ _ => trivial) (asks_handleEvent (h d rfl)))

end Transform.Billing
