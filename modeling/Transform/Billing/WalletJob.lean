import Transform.Billing.Programs

/-!
# Billing.WalletJob — the three writers of a wallet, and what their commits are computed from

A consumption, a credit purchase and a change of plan for one user.  `Seen` is what a session has read since it
began; `Basis` says of each commit which writes it makes, in terms of what was read before it.
-/

namespace Transform.Billing

open Lib Conversions

/-! ## Jobs and what they have read -/

section Jobs

inductive WalletJob
  | consume (units : ℤ) (origin : JobOrigin)
  | purchase (credits : ℤ) (referenceId : Option String)
  | changePlan (tier : ApiTier)
  deriving DecidableEq, Repr

def WalletJob.program (stripe : StripeService) (userId : ℤ) (periodKey : String) : WalletJob → Proc BillSig Unit
  | .consume units origin => thread (Billing.consume userId periodKey units origin)
  | .purchase credits referenceId => thread (grantPurchasedCredits userId credits referenceId)
  | .changePlan tier => thread (Billing.changePlan stripe userId tier)

/-- What a session has read since its last commit or error, and the commits acknowledged so far. -/
structure Seen where
  /-- the bucket, at its first read -/
  credit : Option (Option CreditRow) := none
  /-- the tier, at the first read of the row -/
  tier : Option SubscriptionTier := none
  /-- the clock -/
  now : Option Instant := none
  acknowledged : ℕ := 0

namespace Seen

variable (s : Seen)

/-- The plan balance that was read: what is left in the bucket, or the grant of the tier where there is none. -/
def plan : ℤ :=
  match s.credit with
  | some (some row) => row.remaining
  | _ => monthlyGrant (s.tier.getD .free)

def step : Event BillSig → Seen
  | ⟨.selectCredit _ _, .ok row, _, _⟩ => { s with credit := s.credit <|> some row }
  | ⟨.selectSubscription _, .ok row, _, _⟩ => { s with tier := s.tier <|> some (row.elim .free (·.tier)) }
  | ⟨.utcNow, .ok now, _, _⟩ => { s with now := some now }
  | ⟨.commit _, .ok _, _, _⟩ => { acknowledged := s.acknowledged + 1 }
  | ⟨_, .error _, _, _⟩ => { acknowledged := s.acknowledged }
  | _ => s

theorem step_error (op : BillOp) (e : PyError) (took : Bool) (h) :
    s.step ⟨op, .error e, took, h⟩ = { acknowledged := s.acknowledged } := by
  cases op <;> rfl

end Seen

/-- The insert, or the change of the row read, that a purchase makes where it finds no row of the user. -/
def IsUpsert (userId : ℤ) (write : RowWrite SubscriptionRow) : Prop :=
  write = .insert (.fresh userId .free none none) ∨ ∃ row, write = .update row (row.assign userId .free none none)

/-- What a commit of a job writes. -/
def Basis (userId : ℤ) (periodKey : String) (s : Seen) (tx : Transaction) : WalletJob → Prop
  | .consume units _ => ∃ (b b' : WalletBalances) (wallet : Option SubscriptionRow) (now : Instant) (first : Bool)
      (write : RowWrite CreditRow), s.now = some now ∧ b.planRemaining = s.plan ∧
      b.carryoverCredits = wallet.elim 0 (·.carryoverCredits) ∧
      b.purchasedCredits = wallet.elim 0 (·.purchasedCredits) ∧
      consumeFromWallet b units (wallet.bind (·.carryoverExpiresAt)) now first = .ok b' ∧
      tx.credit = some (userId, periodKey, write) ∧ write.target.remaining = b'.planRemaining ∧
      tx.subscription = applyWalletBalances userId wallet b' ∧ tx.ledger = none
  | .purchase credits _ => tx.credit = none ∧ ((tx.ledger = none ∧ ∃ write,
      tx.subscription = some (userId, write) ∧ IsUpsert userId write) ∨
      tx.ledger.isSome ∧ ∃ row, tx.subscription =
        some (userId, .update row { row with purchasedCredits := row.purchasedCredits + credits }))
  | .changePlan tier => ∃ (row : SubscriptionRow) (periodEnd : Option Instant) (write : RowWrite CreditRow),
      tx.subscription = some (userId, .update row (row.upgraded (apiTierToDomain tier) s.plan periodEnd)) ∧
      tx.credit = some (userId, periodKey, write) ∧
      write.target.remaining = monthlyGrant (apiTierToDomain tier)

/-- The clock of a change of plan stands in the period. -/
def InPeriod (periodKey : String) : WalletJob → Event BillSig → Prop
  | .changePlan _, ⟨.utcNow, .ok now, _, _⟩ => currentPeriodKey now = periodKey
  | _, _ => True

/-- Watches a job: each of its commits has its basis in what it read. -/
def walletMonitor (userId : ℤ) (periodKey : String) (job : WalletJob) : Monitor BillSig Seen where
  pre s op := match op with
    | .commit tx => Basis userId periodKey s tx job
    | _ => True
  rely _ ev := InPeriod periodKey job ev
  step := Seen.step

end Jobs

/-! ## Consumption -/

section Consumption

variable {userId : ℤ} {periodKey : String} {units : ℤ} {origin : JobOrigin} {k : ℕ}

theorem wallet_call {job : WalletJob} {op : BillOp} {s : Seen} {Q : op.Ans → Seen → Prop}
    {E : PyError → Seen → Prop}
    (hpre : (walletMonitor userId periodKey job).pre s op)
    (hQ : ∀ a, InPeriod periodKey job (.done op (.ok a)) → Q a (s.step (.done op (.ok a))))
    (hE : ∀ e, E e { acknowledged := s.acknowledged }) :
    wpe (walletMonitor userId periodKey job) (Billing.call op) Q E s := by
  refine wpe_ask.2 ⟨hpre, hQ, fun e took h _ => ?_⟩
  have hs : (walletMonitor userId periodKey job).step s ⟨op, .error e, took, h⟩ =
      { acknowledged := s.acknowledged } := Seen.step_error s op e took h
  rw [hs]
  exact hE e

/-- What a consumption raises: nothing of it was acknowledged, and where it is retried it starts over. -/
def Failed (k : ℕ) (e : PyError) (s : Seen) : Prop :=
  s.acknowledged = k ∧ (e.cls.retryable = true → s = { acknowledged := k })

theorem failed_call (k : ℕ) (e : PyError) : Failed k e { acknowledged := k } := ⟨rfl, fun _ => rfl⟩

theorem failed_pure {s : Seen} {e : PyError} (hs : s.acknowledged = k) (h : e.cls.retryable = false) :
    Failed k e s :=
  ⟨hs, fun hr => by rw [h] at hr; cases hr⟩

/-- A bucket read, with the tier where there is none; the clock not yet read. -/
structure HasPlan (k : ℕ) (remaining : ℤ) (s : Seen) : Prop where
  credit : ∃ x, s.credit = some x ∧ (x = none → s.tier.isSome)
  plan : s.plan = remaining
  acknowledged : s.acknowledged = k

/-- The plan balance of the first reads stands. -/
theorem HasPlan.step {remaining : ℤ} {s : Seen} (h : HasPlan k remaining s) (op : BillOp) (a : op.Ans)
    (hop : ∀ tx, op ≠ .commit tx) : HasPlan k remaining (s.step (.done op (.ok a))) := by
  obtain ⟨⟨x, hx, ht⟩, hp, hk⟩ := h
  obtain ⟨credit, tier, now, acks⟩ := s
  obtain rfl : credit = some x := hx
  cases op with
  | commit tx => exact absurd rfl (hop tx)
  | selectSubscription u =>
    refine ⟨⟨x, rfl, fun hn => ?_⟩, ?_, hk⟩
    · obtain ⟨t, rfl⟩ := Option.isSome_iff_exists.1 (ht hn)
      rfl
    · rcases x with _ | row
      · obtain ⟨t, rfl⟩ := Option.isSome_iff_exists.1 (ht rfl)
        exact hp
      · exact hp
  | _ => exact ⟨⟨x, rfl, ht⟩, hp, hk⟩

/-- The bucket is read again; what is staged asks for the given row. -/
theorem stageCredit_spec {job : WalletJob} {row : CreditRow} {s : Seen}
    {Q : ℤ × String × RowWrite CreditRow → Seen → Prop} {E : PyError → Seen → Prop}
    (hQ : ∀ old write, write.target = row →
      Q (userId, periodKey, write) (s.step (.done (.selectCredit userId periodKey) (.ok old))))
    (hE : ∀ e, E e { acknowledged := s.acknowledged }) :
    wpe (walletMonitor userId periodKey job) (stageCredit userId periodKey row) Q E s := by
  unfold stageCredit
  rw [wpe_bind]
  refine wallet_call trivial (fun old _ => ?_) hE
  rcases old with _ | old
  · exact hQ none (.insert row) rfl
  · exact hQ (some old) (.update old row) rfl

/-- The bucket is read, or made up from the tier read after it. -/
theorem creditOrGrant_spec {Q : Credit → Seen → Prop} {E : PyError → Seen → Prop}
    (hQ : ∀ credit s, HasPlan k credit.remaining s → Q credit s) (hE : ∀ e s, Failed k e s → E e s) :
    wpe (walletMonitor userId periodKey (.consume units origin)) (creditOrGrant userId periodKey) Q E
      { acknowledged := k } := by
  unfold creditOrGrant getCredit getTierForUser
  simp only [wpe_bind]
  refine wallet_call trivial (fun row _ => ?_) fun e => hE e _ (failed_call k e)
  rcases row with _ | row
  · simp only [wpe_pure, wpe_bind]
    refine wallet_call trivial (fun row _ => ?_) fun e => hE e _ (failed_call k e)
    refine wpe_ofExcept (fun credit hc => ?_) fun e he => hE e _ (failed_pure rfl (fromTier_error he))
    obtain ⟨grant, hg, -, hr⟩ := fromTier_ok hc
    refine hQ credit _ ⟨⟨none, rfl, fun _ => rfl⟩, ?_, rfl⟩
    rw [hr]
    show monthlyGrant (row.elim .free (·.tier)) = grant
    unfold monthlyGrant
    rw [hg]
    rfl
  · simp only [wpe_bind]
    refine wpe_ofExcept (fun credit hc => ?_) fun e he => hE e _ (failed_pure rfl (of_error he))
    exact hQ credit _ ⟨⟨some row, rfl, fun h => (by cases h)⟩, (credit_of_ok hc).2.symm, rfl⟩

/-- **An attempt** makes one commit, on the basis of what it read, and returns once it is acknowledged. -/
theorem consumeAttempt_spec {onConflict : PyError → BillM ℤ} {Q : ℤ → Seen → Prop} {E : PyError → Seen → Prop}
    (hconflict : ∀ e, e.cls = .integrityError → wpe (walletMonitor userId periodKey (.consume units origin))
      (onConflict e) Q E { acknowledged := k })
    (hQ : ∀ n s, s.acknowledged = k + 1 → Q n s) (hE : ∀ e s, Failed k e s → E e s) :
    wpe (walletMonitor userId periodKey (.consume units origin))
      (consumeAttempt userId periodKey units origin onConflict) Q E { acknowledged := k } := by
  unfold consumeAttempt
  simp only [wpe_bind]
  refine creditOrGrant_spec (fun credit s hs => ?_) hE
  obtain rfl := hs.acknowledged
  refine wallet_call trivial (fun wallet _ => ?_) fun e => hE e _ (failed_call _ e)
  replace hs := hs.step (.selectSubscription userId) wallet (by simp)
  refine wpe_ofExcept (fun b hb => ?_) fun e he => hE e _ (failed_pure hs.acknowledged (balances_error he))
  obtain ⟨hp, hc, hq⟩ := balances_ok hb
  refine wallet_call trivial (fun now _ => ?_) fun e => hE e _ (by rw [hs.acknowledged]; exact failed_call _ e)
  replace hs := hs.step .utcNow now (by simp)
  have hnow : (Seen.step (Seen.step s (.done (.selectSubscription userId) (.ok wallet))) (.done .utcNow (.ok now))).now =
    some now := rfl
  generalize Seen.step (Seen.step s (.done (.selectSubscription userId) (.ok wallet))) (.done .utcNow (.ok now)) = s'
    at hs hnow ⊢
  refine wpe_ofExcept (fun b' hb' => ?_) fun e he => hE e _ (failed_pure hs.acknowledged (consumeFromWallet_error he))
  simp only [wpe_tryCatch, wpe_bind, wpe_pure]
  have hraise : ∀ e, wpe (walletMonitor userId periodKey (.consume units origin))
      (if e.cls = .integrityError then onConflict e else .throw e) Q E { acknowledged := s'.acknowledged } := by
    intro e
    rw [hs.acknowledged]
    split_ifs with he
    · exact hconflict e he
    · exact hE e _ (failed_call _ e)
  refine stageCredit_spec (fun old write hw => ?_) hraise
  have hs' := hs.step (.selectCredit userId periodKey) old (by simp)
  have hbasis : Basis userId periodKey (s'.step (.done (.selectCredit userId periodKey) (.ok old)))
      { credit := some (userId, periodKey, write), subscription := applyWalletBalances userId wallet b' }
      (.consume units origin) := by
    refine ⟨b, b', wallet, now, _, write, hnow, ?_, hc, hq, hb', rfl, ?_, rfl, rfl⟩
    · rw [hp, hs'.plan]
    · rw [hw]
  refine wallet_call hbasis (fun _ _ => hQ _ _ ?_) fun e => ?_
  · show (s'.step _).acknowledged + 1 = _
    rw [hs'.acknowledged]
  · rw [hs'.acknowledged, ← hs.acknowledged]
    exact hraise e

/-- **A consumption** that returns made exactly one acknowledged commit, and one that raises made none. -/
theorem consume_spec : wpe (walletMonitor userId periodKey (.consume units origin)) (consume userId periodKey units origin)
    (fun _ s => s.acknowledged = k + 1) (fun _ s => s.acknowledged = k) { acknowledged := k } := by
  have hretried : ∀ {Q : ℤ → Seen → Prop} {E : PyError → Seen → Prop}, (∀ n s, s.acknowledged = k + 1 → Q n s) →
      (∀ e s, Failed k e s → E e s) → wpe (walletMonitor userId periodKey (.consume units origin))
        (consumeOnce userId periodKey units origin false) Q E { acknowledged := k } := by
    intro Q E hQ hE
    refine consumeAttempt_spec (fun _ _ => ?_) hQ hE
    exact consumeAttempt_spec (fun e _ => hE e _ (failed_call k e)) hQ hE
  unfold consume
  rw [wpe_tryCatch]
  refine hretried (fun _ _ h => h) fun e s hs => ?_
  split_ifs with hr
  · rw [hs.2 hr]
    exact hretried (fun _ _ h => h) fun _ _ h => h.1
  · exact hs.1

end Consumption

/-! ## Purchases and changes of plan -/

section Others

variable {userId : ℤ} {periodKey : String}

theorem upsert_spec {credits : ℤ} {referenceId : Option String} {s : Seen} {Q : Unit → Seen → Prop}
    {E : PyError → Seen → Prop} (hQ : ∀ s, Q () s) (hE : ∀ e s, E e s) :
    wpe (walletMonitor userId periodKey (.purchase credits referenceId)) (upsertSubscription userId .free none none)
      Q E s := by
  unfold upsertSubscription
  rw [wpe_bind]
  refine wallet_call trivial (fun row _ => ?_) fun e => hE e _
  rcases row with _ | row
  · exact wallet_call ⟨rfl, .inl ⟨rfl, _, rfl, .inl rfl⟩⟩ (fun _ _ => hQ _) fun e => hE e _
  · exact wallet_call ⟨rfl, .inl ⟨rfl, _, rfl, .inr ⟨row, rfl⟩⟩⟩ (fun _ _ => hQ _) fun e => hE e _

theorem grantPurchasedCredits_spec {credits : ℤ} {referenceId : Option String} {s : Seen} :
    wpe (walletMonitor userId periodKey (.purchase credits referenceId))
      (grantPurchasedCredits userId credits referenceId) (fun _ _ => True) (fun _ _ => True) s := by
  unfold grantPurchasedCredits
  split
  · exact trivial
  rename_i ref _
  split_ifs
  · exact trivial
  unfold grantUnlessListed
  rw [wpe_bind]
  refine wallet_call trivial (fun listed _ => ?_) fun _ => trivial
  split_ifs
  · exact trivial
  have hrecord : ∀ (row : SubscriptionRow) (s : Seen), wpe (walletMonitor userId periodKey (.purchase credits referenceId))
      (recordPurchase userId credits ref row) (fun _ _ => True) (fun _ _ => True) s := by
    intro row s
    unfold recordPurchase
    simp only [wpe_tryCatch, wpe_bind]
    have hraise : ∀ (e : PyError) (s : Seen), wpe (walletMonitor userId periodKey (.purchase credits referenceId))
        (if e.cls = .integrityError then pure () else .throw e) (fun _ _ => True) (fun _ _ => True) s := by
      intro e s
      split_ifs <;> exact trivial
    refine wallet_call trivial (fun id _ => ?_) fun e => hraise e _
    refine wallet_call trivial (fun now _ => ?_) fun e => hraise e _
    exact wallet_call ⟨rfl, .inr ⟨rfl, row, rfl⟩⟩ (fun _ _ => trivial) fun e => hraise e _
  unfold addPurchase walletRow
  simp only [wpe_bind]
  refine wallet_call trivial (fun row _ => ?_) fun _ => trivial
  rcases row with _ | row
  · simp only [wpe_bind]
    refine upsert_spec (fun s => ?_) fun _ _ => trivial
    refine wallet_call trivial (fun row _ => ?_) fun _ => trivial
    rcases row with _ | row
    · exact trivial
    · exact hrecord row _
  · exact hrecord row _

theorem applyUpgrade_spec {tier : ApiTier} {row : SubscriptionRow} {oldPlanRemaining : ℤ} {periodEnd : Option Instant}
    {s : Seen} {k : ℕ} (hs : HasPlan k oldPlanRemaining s) :
    wpe (walletMonitor userId periodKey (.changePlan tier))
      (applyUpgrade userId periodKey (apiTierToDomain tier) row oldPlanRemaining periodEnd)
      (fun _ _ => True) (fun _ _ => True) s := by
  unfold applyUpgrade
  simp only [wpe_bind]
  refine wallet_call trivial (fun found _ => ?_) fun _ => trivial
  replace hs := hs.step (.selectSubscription userId) found (by simp)
  rcases found with _ | found
  · exact trivial
  simp only [wpe_bind]
  refine stageCredit_spec (fun old write hw => ?_) fun _ => trivial
  replace hs := hs.step (.selectCredit userId periodKey) old (by simp)
  refine wallet_call trivial (fun id _ => ?_) fun _ => trivial
  replace hs := hs.step .uuid4 id (by simp)
  refine wallet_call trivial (fun now _ => ?_) fun _ => trivial
  replace hs := hs.step .utcNow now (by simp)
  refine wallet_call ⟨row, periodEnd, write, ?_, rfl, ?_⟩ (fun _ _ => trivial) fun _ => trivial
  · rw [hs.plan]
  · rw [hw]

/-- A change of plan commits at most once: an upgrade, from the row and the bucket it read first. -/
theorem changePlan_spec {stripe : StripeService} {tier : ApiTier} :
    wpe (walletMonitor userId periodKey (.changePlan tier)) (changePlan stripe userId tier)
      (fun _ _ => True) (fun _ _ => True) {} := by
  unfold changePlan getCredit
  simp only [wpe_bind]
  refine wpe_ofExcept (fun _ _ => ?_) fun _ _ => trivial
  refine wallet_call trivial (fun selected _ => ?_) fun _ => trivial
  refine wpe_ofExcept (fun target ht => ?_) fun _ _ => trivial
  obtain rfl := checkCurrent_ok ht
  refine wallet_call trivial (fun now hnow => ?_) fun _ => trivial
  obtain rfl : currentPeriodKey now = periodKey := hnow
  refine wallet_call trivial (fun bucket _ => ?_) fun _ => trivial
  -- what follows Stripe's answer, with the plan balance of the two reads
  have hfinish : ∀ {oldPlanRemaining : ℤ} {s : Seen}, HasPlan 0 oldPlanRemaining s →
      wpe (walletMonitor userId (currentPeriodKey now) (.changePlan tier))
        (Billing.call (.changeSubscriptionPlan target.subscriptionId target.newPriceId userId (apiTierToDomain tier)
          (tierRank target.row.tier < tierRank (apiTierToDomain tier))))
        (fun result => wpe (walletMonitor userId (currentPeriodKey now) (.changePlan tier))
          (finishChange userId (currentPeriodKey now) (apiTierToDomain tier) target.row oldPlanRemaining result)
          (fun _ _ => True) (fun _ _ => True)) (fun _ _ => True) s := by
    intro oldPlanRemaining s hs
    refine wallet_call trivial (fun result _ => ?_) fun _ => trivial
    replace hs := hs.step (.changeSubscriptionPlan target.subscriptionId target.newPriceId userId (apiTierToDomain tier)
      (tierRank target.row.tier < tierRank (apiTierToDomain tier))) result (by simp)
    unfold finishChange
    rcases result with _ | result
    · exact trivial
    dsimp only
    split_ifs
    · exact applyUpgrade_spec hs
    · exact trivial
  rcases bucket with _ | bucket
  · exact hfinish ⟨⟨none, rfl, fun _ => rfl⟩, rfl, rfl⟩
  · simp only [wpe_bind]
    refine wpe_ofExcept (fun credit hc => ?_) fun _ _ => trivial
    exact hfinish ⟨⟨some bucket, rfl, fun h => (by cases h)⟩, (credit_of_ok hc).2.symm, rfl⟩

/-- **The bases**: whatever a job commits has its basis in what it read. -/
theorem program_spec (stripe : StripeService) (job : WalletJob) :
    wp (walletMonitor userId periodKey job) (job.program stripe userId periodKey) (fun _ _ => True) {} := by
  cases job with
  | consume units origin => exact wp_thread (wp_mono (fun r s _ => trivial) (consume_spec (k := 0)))
  | purchase credits referenceId => exact wp_thread (wp_mono (fun r s _ => trivial) grantPurchasedCredits_spec)
  | changePlan tier => exact wp_thread (wp_mono (fun r s _ => trivial) changePlan_spec)

end Others

end Transform.Billing
