import Transform.Billing.Sequential

/-!
# Billing.Expiry — expired carryover over runs

Consumptions, purchases, activations and changes of plan of one user, one after the other.  Beside the stored pair
of carryover and expiry runs a wallet that forgets what has expired; `expired_stays_unspendable_iff` says when the two
count the same credits from then on.
-/

namespace Transform.Billing

open Lib Conversions

/-! ## Carryover balances -/

section Balances

/-- A carryover balance with its expiry. -/
structure Carryover where
  credits : ℤ
  expiresAt : Option Instant
  deriving DecidableEq, Repr

namespace Carryover

variable (c : Carryover) (now : Instant)

/-- What `available_total` counts of it, and `consume_from_wallet` may spend. -/
def live : ℤ := liveCarryover c.credits c.expiresAt now

def Expired : Prop := c.expiresAt.any (· ≤ now) = true

/-- The balance after a change, with what has expired by then forgotten for good. -/
def forget (before after : Carryover) : Carryover :=
  ⟨c.live now + (after.credits - before.credits), after.expiresAt⟩

end Carryover

variable {c c' kept : Carryover} {now : Instant}

theorem live_of_expired {t : Instant} (h : c.Expired now) (ht : now ≤ t) : c.live t = 0 := by
  obtain ⟨credits, expiresAt⟩ := c
  rcases expiresAt with _ | e
  · cases h
  · have he : e ≤ now := by simpa [Carryover.Expired] using h
    have het : e ≤ t := Int.le_trans he ht
    show liveCarryover credits (some e) t = 0
    unfold liveCarryover
    simp [het]

theorem live_of_not_expired (hc : 0 ≤ c.credits) (h : ¬ c.Expired now) : c.live now = c.credits := by
  show liveCarryover c.credits c.expiresAt now = c.credits
  rw [liveCarryover_eq hc]
  exact if_neg h

/-- From `now` on, both count the same. -/
def CountsAlike (now : Instant) (c kept : Carryover) : Prop := ∀ t, now ≤ t → c.live t = kept.live t

/-- What is spent is live; the expiry stands. -/
def Spends (now : Instant) (c c' : Carryover) : Prop :=
  c'.expiresAt = c.expiresAt ∧ c'.credits ≤ c.credits ∧ c.credits - c'.credits ≤ c.live now

theorem spends_refl (now : Instant) (c : Carryover) : Spends now c c := by
  have h := liveCarryover_nonneg c.credits c.expiresAt now
  refine ⟨rfl, Int.le_refl _, ?_⟩
  show c.credits - c.credits ≤ liveCarryover c.credits c.expiresAt now
  omega

theorem countsAlike_of_spends (hc : 0 ≤ c.credits) (hk : c.live now = kept.live now) (h : Spends now c c') :
    CountsAlike now c' (kept.forget now c c') := by
  obtain ⟨hexp, hle, hlive⟩ := h
  rw [Carryover.forget, ← hk]
  by_cases he : c.Expired now
  · have he' : c'.Expired now := by
      show c'.expiresAt.any (· ≤ now) = true
      rw [hexp]
      exact he
    intro t ht
    rw [live_of_expired he' ht]
    exact (live_of_expired (c := ⟨c.live now + (c'.credits - c.credits), c'.expiresAt⟩) he' ht).symm
  · intro t _
    rw [live_of_not_expired hc he]
    obtain ⟨credits, expiresAt⟩ := c'
    have hcredits : c.credits + (credits - c.credits) = credits := by omega
    rw [hcredits]

theorem countsAlike_iff_of_carries (kept : Carryover) (hc : 0 ≤ c.credits) (hk : c.live now = kept.live now)
    (hle : c.credits ≤ c'.credits) :
    CountsAlike now c' (kept.forget now c c') ↔ c.live now = c.credits ∨ c'.Expired now := by
  rw [Carryover.forget, ← hk]
  constructor
  · intro h
    by_contra hnot
    obtain ⟨hdead, hnew⟩ := not_or.1 hnot
    have hexp : c.Expired now := by
      by_contra he
      exact hdead (live_of_not_expired hc he)
    have hzero : c.live now = 0 := live_of_expired hexp (Int.le_refl _)
    have hnow := h now (Int.le_refl _)
    rw [live_of_not_expired (by omega) hnew, hzero] at hnow
    have hkept : Carryover.live ⟨0 + (c'.credits - c.credits), c'.expiresAt⟩ now = 0 + (c'.credits - c.credits) :=
      live_of_not_expired (c := ⟨_, _⟩) (by simp only; omega) hnew
    rw [hkept] at hnow
    omega
  · rintro (hlive | hexp)
    · intro t _
      rw [hlive]
      obtain ⟨credits, expiresAt⟩ := c'
      have hcredits : c.credits + (credits - c.credits) = credits := by omega
      rw [hcredits]
    · intro t ht
      rw [live_of_expired hexp ht]
      exact (live_of_expired (c := ⟨c.live now + (c'.credits - c.credits), c'.expiresAt⟩) hexp ht).symm

end Balances

/-! ## What each session does to the stored pair -/

section Sessions

variable {now : Instant} {answer : Option PlanChangeResult} {db : Database} {userId : ℤ} {periodKey : String}

def storedCarryover (userId : ℤ) (db : Database) : Carryover :=
  (db.subscriptions userId).elim ⟨0, none⟩ fun row => ⟨row.carryoverCredits, row.carryoverExpiresAt⟩

theorem stored_congr {db' : Database} (h : db'.subscriptions = db.subscriptions) :
    storedCarryover userId db' = storedCarryover userId db := by
  show (db'.subscriptions userId).elim _ _ = (db.subscriptions userId).elim _ _
  rw [h]

theorem stored_of_row {row : SubscriptionRow} (h : db.subscriptions userId = some row) :
    storedCarryover userId db = ⟨row.carryoverCredits, row.carryoverExpiresAt⟩ := by
  show (db.subscriptions userId).elim _ _ = _
  rw [h]
  rfl

/-- A change of the row as it stands leaves the pair it asks for. -/
theorem stored_commit {tx : Transaction} {old new : SubscriptionRow}
    (htx : tx.subscription = some (userId, .update old new)) (hrow : db.subscriptions userId = some old) :
    storedCarryover userId (db.commit tx) = ⟨new.carryoverCredits, new.carryoverExpiresAt⟩ :=
  stored_of_row (subscriptions_commit htx hrow)

theorem stored_upserted (tier : SubscriptionTier) (customer subscription : Option String) :
    storedCarryover userId (db.setSubscription userId (upserted db userId tier customer subscription)) =
      storedCarryover userId db := by
  unfold storedCarryover upserted
  rcases hrow : db.subscriptions userId with _ | row <;>
    simp [Database.setSubscription, SubscriptionRow.fresh, SubscriptionRow.assign]

/-- The bucket, or the grant of the tier: the tables stand, and nothing it raises is retried. -/
theorem session_creditOrGrant {Q : Credit → Database → Prop} {E : PyError → Database → Prop}
    (hQ : ∀ credit, Q credit db) (hE : ∀ e, e.cls.retryable = false → E e db) :
    wpe (session now answer) (creditOrGrant userId periodKey) Q E db := by
  unfold creditOrGrant getTierForUser
  rw [wpe_bind]
  refine session_getCredit (fun _ => ?_) (fun row credit _ _ => hQ credit) fun row e _ he => hE e (of_error he)
  simp only [wpe_bind]
  refine session_read rfl rfl ?_
  rw [wpe_pure]
  exact wpe_ofExcept (fun credit _ => hQ credit) fun e he => hE e (fromTier_error he)

/-- **A consumption** spends live carryover only, and leaves the expiry. -/
theorem session_consume {units : ℤ} {origin : JobOrigin} :
    wpe (session now answer) (consume userId periodKey units origin)
      (fun _ db' => Spends now (storedCarryover userId db) (storedCarryover userId db'))
      (fun _ db' => Spends now (storedCarryover userId db) (storedCarryover userId db')) db := by
  have hattempt : ∀ (onConflict : PyError → BillM ℤ), wpe (session now answer)
      (consumeAttempt userId periodKey units origin onConflict)
      (fun _ db' => Spends now (storedCarryover userId db) (storedCarryover userId db'))
      (fun e db' => e.cls.retryable = false ∧ db' = db) db := by
    intro onConflict
    unfold consumeAttempt
    simp only [wpe_bind]
    refine session_creditOrGrant (fun credit => ?_) fun e he => ⟨he, rfl⟩
    refine session_read rfl rfl ?_
    generalize hwallet : db.selectSubscription userId = wallet
    refine wpe_ofExcept (fun b hb => ?_) fun e he => ⟨balances_error he, rfl⟩
    refine session_read rfl rfl ?_
    refine wpe_ofExcept (fun b' hb' => ?_) fun e he => ⟨consumeFromWallet_error he, rfl⟩
    simp only [wpe_tryCatch, wpe_bind, wpe_pure]
    refine session_stageCredit fun write htarget hwrite => ?_
    rcases wallet with _ | row
    · refine session_commit ⟨fun h => (by cases h), fun h => (by cases h; exact hwrite), fun h => (by cases h)⟩ ?_
      rw [stored_congr (subscriptions_commit_none rfl)]
      exact spends_refl now _
    · obtain ⟨hrow, -⟩ := select_some hwallet
      refine session_commit ⟨fun h => (by cases h; exact hrow), fun h => (by cases h; exact hwrite),
        fun h => (by cases h)⟩ ?_
      have hsub : applyWalletBalances userId (some row) b' = some (userId, .update row { row with
          carryoverCredits := b'.carryoverCredits, purchasedCredits := b'.purchasedCredits }) := rfl
      have hstored := @stored_commit db userId
        ⟨applyWalletBalances userId (some row) b', some (userId, periodKey, write), none⟩ row _ hsub hrow
      rw [stored_of_row hrow, hstored]
      obtain ⟨-, hc, -⟩ := balances_ok hb
      obtain ⟨c, -, -, hc', -, -, hc0, hcl, -⟩ := consumeFromWallet_spec hb'
      have hcarry : b.carryoverCredits = row.carryoverCredits := hc
      rw [hcarry] at hc' hcl
      refine ⟨rfl, ?_, ?_⟩
      · show b'.carryoverCredits ≤ row.carryoverCredits
        omega
      · show row.carryoverCredits - b'.carryoverCredits ≤ liveCarryover row.carryoverCredits row.carryoverExpiresAt now
        have hexp : c ≤ liveCarryover row.carryoverCredits row.carryoverExpiresAt now := hcl
        omega
  unfold consume
  rw [wpe_tryCatch]
  refine wpe_mono (hattempt _) (fun _ _ h => h) ?_
  rintro e db' ⟨hr, rfl⟩
  rw [hr]
  exact spends_refl now _

theorem session_purchase {credits : ℤ} {referenceId : Option String} :
    wpe (session now answer) (grantPurchasedCredits userId credits referenceId)
      (fun _ db' => storedCarryover userId db' = storedCarryover userId db)
      (fun _ db' => storedCarryover userId db' = storedCarryover userId db) db := by
  have hrecord : ∀ {db' : Database} {row : SubscriptionRow} {ref : String}, db'.subscriptions userId = some row →
      storedCarryover userId db' = storedCarryover userId db →
      wpe (session now answer) (recordPurchase userId credits ref row)
        (fun _ db'' => storedCarryover userId db'' = storedCarryover userId db)
        (fun _ db'' => storedCarryover userId db'' = storedCarryover userId db) db' := by
    intro db' row ref hrow hsame
    unfold recordPurchase
    simp only [wpe_tryCatch, wpe_bind]
    refine session_read rfl rfl (session_read rfl rfl (session_commit_cases ?_ fun e => ?_))
    · rw [stored_commit rfl hrow, ← hsame, stored_of_row hrow]
    · split_ifs <;> exact hsame
  unfold grantPurchasedCredits
  split
  · exact rfl
  rename_i ref _
  split_ifs
  · exact rfl
  unfold grantUnlessListed
  rw [wpe_bind]
  refine session_read rfl rfl ?_
  split_ifs
  · exact rfl
  unfold addPurchase walletRow
  simp only [wpe_bind]
  refine session_read rfl rfl ?_
  rcases hselect : db.selectSubscription userId with _ | row
  · simp only [wpe_bind]
    refine session_upsert (session_read rfl rfl ?_)
    rcases hselect' : (db.setSubscription userId (upserted db userId .free none none)).selectSubscription userId with
      _ | row
    · exact stored_upserted ..
    · exact hrecord (select_some hselect').1 (stored_upserted ..)
  · exact hrecord (select_some hselect).1 rfl

/-- An activation leaves the pair alone. -/
theorem session_activate {prices : StripePrices} {tierName customer subscription priceId : Option String} :
    wpe (session now answer) (activateSubscription prices userId tierName customer subscription priceId)
      (fun _ db' => storedCarryover userId db' = storedCarryover userId db)
      (fun _ db' => storedCarryover userId db' = storedCarryover userId db) db := by
  unfold activateSubscription
  rw [wpe_bind]
  refine wpe_ofExcept (fun tier _ => ?_) fun _ _ => rfl
  rw [wpe_bind]
  refine session_upsert ?_
  have hupserted : storedCarryover userId (db.setSubscription userId (upserted db userId tier customer subscription)) =
      storedCarryover userId db := stored_upserted tier customer subscription
  split
  · exact hupserted
  · exact hupserted
  · unfold grantPlan
    rw [wpe_bind]
    refine session_read rfl rfl ?_
    rw [wpe_bind]
    refine session_getCredit (fun _ => ?_) (fun row credit _ _ => ?_) fun _ _ _ _ => hupserted
    · show wpe _ (openBucket userId _ tier) _ _ _
      unfold openBucket
      rw [wpe_bind]
      exact wpe_ofExcept (fun credit _ => session_saveCredit hupserted) fun _ _ => hupserted
    · show wpe _ (raiseBucket userId _ _ credit) _ _ _
      unfold raiseBucket
      dsimp only
      split_ifs
      · exact session_saveCredit hupserted
      · exact hupserted

/-- A change of plan is an upgrade that goes through, with the given end of the previous period: it is allowed, ranks
higher, Stripe answers, and the bucket is valid. -/
def Upgrades (stripe : StripeService) (userId : ℤ) (db : Database) (now : Instant) (tier : ApiTier)
    (answer : Option PlanChangeResult) (periodEnd : Option Instant) : Prop :=
  ∃ target result, checkRequested stripe (apiTierToDomain tier) = .ok () ∧
    checkCurrent stripe (apiTierToDomain tier) (db.selectSubscription userId) = .ok target ∧ answer = some result ∧
    tierRank target.row.tier < tierRank (apiTierToDomain tier) ∧
    (∀ row, db.credits userId (currentPeriodKey now) = some row → row.Valid) ∧ result.previousPeriodEnd = periodEnd

/-- An upgrade stores the stored carryover and the plan balance with the new expiry. -/
def Carries (periodEnd : Option Instant) (c c' : Carryover) : Prop := c.credits ≤ c'.credits ∧ c'.expiresAt = periodEnd

theorem session_applyUpgrade {requested : SubscriptionTier} {row : SubscriptionRow} {oldPlanRemaining : ℤ}
    {periodEnd : Option Instant} (hrow : db.selectSubscription userId = some row) (hplan : 0 ≤ oldPlanRemaining) :
    wpe (session now answer) (applyUpgrade userId periodKey requested row oldPlanRemaining periodEnd)
      (fun _ db' => Carries periodEnd (storedCarryover userId db) (storedCarryover userId db')) (fun _ _ => False) db := by
  have hstands := (select_some hrow).1
  unfold applyUpgrade
  rw [wpe_bind]
  refine session_read (congrArg Except.ok hrow) rfl ?_
  simp only [wpe_bind, wpe_pure]
  refine session_stageCredit fun write _ hwrite => ?_
  refine session_read rfl rfl (session_read rfl rfl (session_commit ⟨fun h => (by cases h; exact hstands),
    fun h => (by cases h; exact hwrite), fun h href => (by cases h; cases href)⟩ ?_))
  rw [stored_commit rfl hstands, stored_of_row hstands]
  refine ⟨?_, rfl⟩
  show row.carryoverCredits ≤ row.carryoverCredits + oldPlanRemaining
  omega

/-- **A change of plan** stores the carryover and the plan balance where it is an upgrade that goes through, and
leaves the tables alone where it is not. -/
theorem session_changePlan {stripe : StripeService} {tier : ApiTier} {R : Database → Prop}
    (hup : ∀ periodEnd db', Upgrades stripe userId db now tier answer periodEnd →
      Carries periodEnd (storedCarryover userId db) (storedCarryover userId db') → R db')
    (hnot : (∀ periodEnd, ¬ Upgrades stripe userId db now tier answer periodEnd) → R db) :
    wpe (session now answer) (changePlan stripe userId tier) (fun _ => R) (fun _ => R) db := by
  unfold changePlan
  simp only [wpe_bind]
  refine wpe_ofExcept (fun _ hreq => ?_) fun e he => hnot ?_
  · refine session_read rfl rfl ?_
    refine wpe_ofExcept (fun target htarget => ?_) fun e he => hnot ?_
    · refine session_read rfl rfl ?_
      have hrow : db.selectSubscription userId = some target.row := checkCurrent_ok htarget
      have hfinish : ∀ {plan : ℤ}, 0 ≤ plan →
          (∀ row, db.credits userId (currentPeriodKey now) = some row → row.Valid) →
          wpe (session now answer) (Billing.call (.changeSubscriptionPlan target.subscriptionId target.newPriceId userId
            (apiTierToDomain tier) (tierRank target.row.tier < tierRank (apiTierToDomain tier))))
            (fun result => wpe (session now answer)
              (finishChange userId (currentPeriodKey now) (apiTierToDomain tier) target.row plan result)
              (fun _ => R) (fun _ => R)) (fun _ => R) db := by
        intro plan hplan hvalid
        refine session_read rfl rfl ?_
        unfold finishChange
        rcases answer with _ | result
        · refine hnot ?_
          rintro periodEnd ⟨_, _, -, -, h, -⟩
          cases h
        · dsimp only
          split_ifs with hrank
          · exact wpe_mono (session_applyUpgrade hrow hplan)
              (fun _ db' h => hup _ db' ⟨target, result, hreq, htarget, rfl, hrank, hvalid, rfl⟩ h) fun _ _ h => h.elim
          · refine hnot ?_
            rintro periodEnd ⟨target', _, -, htarget', -, hrank', -⟩
            rw [htarget] at htarget'
            cases htarget'
            exact hrank hrank'
      refine session_getCredit (fun hnone => ?_) (fun row credit hbucket hc => ?_) fun row e hbucket he => hnot ?_
      · exact hfinish (monthlyGrant_nonneg _) fun row h => (by rw [hnone] at h; cases h)
      · refine hfinish credit.remaining_nonneg fun row' h => ?_
        rw [hbucket] at h
        cases h
        exact valid_of_credit hc
      · rintro periodEnd ⟨_, _, -, -, -, -, hvalid, -⟩
        obtain ⟨credit, hc, -⟩ := credit_of_valid (hvalid row hbucket)
        rw [hc] at he
        cases he
    · rintro periodEnd ⟨target, _, -, htarget, -⟩
      rw [htarget] at he
      cases he
  · rintro periodEnd ⟨_, _, hreq, -⟩
    rw [hreq] at he
    cases he

end Sessions

/-! ## Runs -/

section Runs

/-- What one of the writers is asked to do. -/
inductive BillingRequest
  | consume (periodKey : String) (units : ℤ) (origin : JobOrigin)
  | purchase (credits : ℤ) (referenceId : Option String)
  | activate (tierName stripeCustomerId stripeSubscriptionId priceId : Option String)
  | changePlan (tier : ApiTier) (answer : Option PlanChangeResult)
  deriving DecidableEq, Repr

structure Served where
  now : Instant
  request : BillingRequest
  deriving DecidableEq, Repr

variable (stripe : StripeService) (userId : ℤ)

/-- The tables after a request. -/
def serve (db : Database) (op : Served) : Database :=
  match op.request with
  | .consume periodKey units origin =>
    ((Billing.consume userId periodKey units origin).run.exec (answering op.now none) db).2
  | .purchase credits referenceId =>
    ((grantPurchasedCredits userId credits referenceId).run.exec (answering op.now none) db).2
  | .activate tierName customer subscription priceId =>
    ((activateSubscription stripe.prices userId tierName customer subscription priceId).run.exec
      (answering op.now none) db).2
  | .changePlan tier answer => ((Billing.changePlan stripe userId tier).run.exec (answering op.now answer) db).2

/-- Each request is served no earlier than the one before it. -/
def InOrder : Instant → List Served → Prop
  | _, [] => True
  | t, op :: ops => t ≤ op.now ∧ InOrder op.now ops

/-- Along the run, nothing that has expired is counted or spent again: the stored balance counts what a wallet counts
that forgets the expired, and what a request takes was live in that wallet. -/
def ExpiredStaysUnspendable : Database → Carryover → List Served → Prop
  | _, _, [] => True
  | db, kept, op :: ops =>
    let db' := serve stripe userId db op
    let kept' := kept.forget op.now (storedCarryover userId db) (storedCarryover userId db')
    CountsAlike op.now (storedCarryover userId db') kept' ∧
      (storedCarryover userId db).credits - (storedCarryover userId db').credits ≤ kept.live op.now ∧
      ExpiredStaysUnspendable db' kept' ops

/-- Each upgrade of the run finds what is stored live, or its own new expiry passed. -/
def UpgradesFindLive : Database → List Served → Prop
  | _, [] => True
  | db, op :: ops =>
    (∀ tier answer periodEnd, op.request = .changePlan tier answer →
      Upgrades stripe userId db op.now tier answer periodEnd →
      (storedCarryover userId db).live op.now = (storedCarryover userId db).credits ∨
        periodEnd.any (· ≤ op.now) = true) ∧
      UpgradesFindLive (serve stripe userId db op) ops

variable {stripe : StripeService} {userId : ℤ}

theorem serve_spec (db : Database) (op : Served) :
    Spends op.now (storedCarryover userId db) (storedCarryover userId (serve stripe userId db op)) ∧
        (∀ tier answer periodEnd, op.request = .changePlan tier answer →
          ¬ Upgrades stripe userId db op.now tier answer periodEnd) ∨
      ∃ tier answer periodEnd, op.request = .changePlan tier answer ∧
        Upgrades stripe userId db op.now tier answer periodEnd ∧
        Carries periodEnd (storedCarryover userId db) (storedCarryover userId (serve stripe userId db op)) := by
  obtain ⟨now, request⟩ := op
  have hsame : ∀ {db' : Database}, storedCarryover userId db' = storedCarryover userId db →
      Spends now (storedCarryover userId db) (storedCarryover userId db') := by
    intro db' h
    rw [h]
    exact spends_refl now _
  rcases request with ⟨periodKey, units, origin⟩ | ⟨credits, ref⟩ | ⟨name, customer, subscription, price⟩ | ⟨tier, answer⟩
  · exact .inl ⟨exec_of_wpe (R := fun db' => Spends now (storedCarryover userId db) (storedCarryover userId db'))
      session_consume, fun _ _ _ h => (by cases h)⟩
  · exact .inl ⟨hsame (exec_of_wpe (R := fun db' => storedCarryover userId db' = storedCarryover userId db)
      session_purchase), fun _ _ _ h => (by cases h)⟩
  · exact .inl ⟨hsame (exec_of_wpe (R := fun db' => storedCarryover userId db' = storedCarryover userId db)
      session_activate), fun _ _ _ h => (by cases h)⟩
  · have hchange := exec_of_wpe (R := fun db' =>
        Spends now (storedCarryover userId db) (storedCarryover userId db') ∧
          (∀ periodEnd, ¬ Upgrades stripe userId db now tier answer periodEnd) ∨
        ∃ periodEnd, Upgrades stripe userId db now tier answer periodEnd ∧
          Carries periodEnd (storedCarryover userId db) (storedCarryover userId db'))
      (session_changePlan (fun periodEnd db' hup hc => .inr ⟨periodEnd, hup, hc⟩)
        fun hnot => .inl ⟨spends_refl now _, hnot⟩)
    rcases hchange with ⟨hsp, hnot⟩ | ⟨periodEnd, hup, hc⟩
    · refine .inl ⟨hsp, fun tier' answer' periodEnd h => ?_⟩
      cases h
      exact hnot periodEnd
    · exact .inr ⟨tier, answer, periodEnd, rfl, hup, hc⟩

theorem upgrade_periodEnd_unique {db : Database} {now : Instant} {tier : ApiTier} {answer : Option PlanChangeResult}
    {e e' : Option Instant} (h : Upgrades stripe userId db now tier answer e)
    (h' : Upgrades stripe userId db now tier answer e') : e = e' := by
  obtain ⟨_, result, -, -, hanswer, -, -, rfl⟩ := h
  obtain ⟨_, result', -, -, hanswer', -, -, rfl⟩ := h'
  rw [hanswer] at hanswer'
  cases hanswer'
  rfl

/-- One request keeps what has expired forgotten exactly if it is no upgrade over a dead balance. -/
theorem serve_countsAlike_iff {db : Database} {op : Served} {kept : Carryover}
    (hc : 0 ≤ (storedCarryover userId db).credits)
    (hk : (storedCarryover userId db).live op.now = kept.live op.now) :
    (CountsAlike op.now (storedCarryover userId (serve stripe userId db op))
        (kept.forget op.now (storedCarryover userId db) (storedCarryover userId (serve stripe userId db op))) ∧
      (storedCarryover userId db).credits - (storedCarryover userId (serve stripe userId db op)).credits ≤
        kept.live op.now) ↔
    ∀ tier answer periodEnd, op.request = .changePlan tier answer →
      Upgrades stripe userId db op.now tier answer periodEnd →
      (storedCarryover userId db).live op.now = (storedCarryover userId db).credits ∨
        periodEnd.any (· ≤ op.now) = true := by
  rcases @serve_spec stripe userId db op with ⟨hsp, hnot⟩ | ⟨tier, answer, periodEnd, hreq, hup, hle, hexp⟩
  · refine ⟨fun _ tier answer periodEnd hreq hup => absurd hup (hnot tier answer periodEnd hreq), fun _ => ?_⟩
    exact ⟨countsAlike_of_spends hc hk hsp, hk ▸ hsp.2.2⟩
  · have hlive : 0 ≤ kept.live op.now := liveCarryover_nonneg ..
    have hiff := countsAlike_iff_of_carries kept hc hk hle
    unfold Carryover.Expired at hiff
    rw [hexp] at hiff
    constructor
    · rintro ⟨halike, -⟩ tier' answer' periodEnd' hreq' hup'
      rw [hreq] at hreq'
      cases hreq'
      rw [← upgrade_periodEnd_unique hup hup']
      exact hiff.1 halike
    · intro h
      exact ⟨hiff.2 (h tier answer periodEnd hreq hup), by omega⟩

theorem serve_nonneg {db : Database} {op : Served} (hc : 0 ≤ (storedCarryover userId db).credits) :
    0 ≤ (storedCarryover userId (serve stripe userId db op)).credits := by
  rcases @serve_spec stripe userId db op with ⟨⟨-, -, hsp⟩, -⟩ | ⟨tier, answer, periodEnd, -, -, hle, -⟩
  · have hlive : (storedCarryover userId db).live op.now ≤ (storedCarryover userId db).credits :=
      liveCarryover_le hc ..
    omega
  · omega

/-- **Expired carryover** stays unspendable along a run exactly if each upgrade of it finds what is stored live, or
its own new expiry passed. -/
theorem expired_stays_unspendable_iff : ∀ (ops : List Served) {db : Database} {kept : Carryover} {t : Instant},
    0 ≤ (storedCarryover userId db).credits → CountsAlike t (storedCarryover userId db) kept → InOrder t ops →
    (ExpiredStaysUnspendable stripe userId db kept ops ↔ UpgradesFindLive stripe userId db ops)
  | [], _, _, _, _, _, _ => Iff.rfl
  | op :: ops, db, kept, t, hc, hk, hord => by
    have hstep := @serve_countsAlike_iff stripe userId db op kept hc (hk op.now hord.1)
    constructor
    · rintro ⟨halike, htaken, hrest⟩
      exact ⟨hstep.1 ⟨halike, htaken⟩,
        (expired_stays_unspendable_iff ops (serve_nonneg hc) halike hord.2).1 hrest⟩
    · rintro ⟨hlive, hrest⟩
      obtain ⟨halike, htaken⟩ := hstep.2 hlive
      exact ⟨halike, htaken, (expired_stays_unspendable_iff ops (serve_nonneg hc) halike hord.2).2 hrest⟩

/-- Stripe with a price for each tier. -/
def pricedStripe : StripeService := ⟨true, ⟨"pro", "pro_plus", "enterprise"⟩⟩

def carryoverUntil (expiresAt : Instant) : Database where
  subscriptions := Function.update (fun _ => none) 7 (some
    { userId := some 7
      tier := .pro
      stripeSubscriptionId := some "sub_1"
      carryoverCredits := 100
      carryoverExpiresAt := some expiresAt })
  credits := fun _ _ => none
  transactions := []

/-- An upgrade at instant 20, and a consumption after its new expiry. -/
def upgradeThenConsume : List Served :=
  [⟨20, .changePlan .proPlus (some ⟨some 1000, none⟩)⟩, ⟨2000, .consume "1970-01" 5 .web⟩]

theorem expired_stays_unspendable_live : ExpiredStaysUnspendable pricedStripe 7 (carryoverUntil 50)
    (storedCarryover 7 (carryoverUntil 50)) upgradeThenConsume := by
  refine (expired_stays_unspendable_iff upgradeThenConsume (by decide) (fun _ _ => rfl)
    (show InOrder 0 upgradeThenConsume from ⟨by decide, by decide, trivial⟩)).2 ?_
  exact ⟨fun _ _ _ _ _ => .inl rfl, fun _ _ _ h => (by cases h), trivial⟩

/-- The upgrade adds the plan balance to the stored number, and the new expiry brings the expired credits back. -/
theorem expired_revived_by_upgrade : ¬ ∀ (stripe : StripeService) (userId : ℤ) (db : Database) (ops : List Served)
    (t : Instant), 0 ≤ (storedCarryover userId db).credits → InOrder t ops →
    ExpiredStaysUnspendable stripe userId db (storedCarryover userId db) ops := by
  intro h
  obtain ⟨halike, -⟩ := h pricedStripe 7 (carryoverUntil 10) [⟨20, .changePlan .proPlus (some ⟨some 1000, none⟩)⟩] 0
    (by decide) ⟨by decide, trivial⟩
  have hstored : storedCarryover 7 (serve pricedStripe 7 (carryoverUntil 10)
      ⟨20, .changePlan .proPlus (some ⟨some 1000, none⟩)⟩) = ⟨600, some 1000⟩ := by rfl
  have hlive := halike 20 (Int.le_refl _)
  rw [hstored] at hlive
  exact absurd hlive (by decide)

end Runs

end Transform.Billing
