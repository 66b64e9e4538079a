import Transform.Billing.Tier
import Transform.Conversions.Job

/-!
# Billing.CreditWallet — three populations of credits and the order they are spent in

Plan credits, carryover credits that expire at an instant, and purchased credits.  Expiry is decided where the
balance is read; the stored number stays.  `consumeFromWallet` spends the live carryover first, then the plan or the
purchased pool by preference, and clamps at what there is.

* `consumption_conserves`: what leaves the wallet is what was asked as far as it is there, each pool in its turn, and two
  consumptions one after the other are one of both.
-/

namespace Transform.Billing

open Conversions

/-! ## Balances -/

section Balances

/-- Spendable credits by population; none is negative. -/
structure WalletBalances where
  planRemaining : ℤ
  carryoverCredits : ℤ
  purchasedCredits : ℤ
  plan_nonneg : 0 ≤ planRemaining
  carryover_nonneg : 0 ≤ carryoverCredits
  purchased_nonneg : 0 ≤ purchasedCredits

/-- The balances of stored numbers, which may be negative. -/
def WalletBalances.of (plan carryover purchased : ℤ) : Except PyError WalletBalances :=
  if hp : plan < 0 then .error ⟨.valueError, s!"plan_remaining cannot be negative (got {plan})."⟩
  else if hc : carryover < 0 then
    .error ⟨.valueError, s!"carryover_credits cannot be negative (got {carryover})."⟩
  else if hb : purchased < 0 then
    .error ⟨.valueError, s!"purchased_credits cannot be negative (got {purchased})."⟩
  else .ok ⟨plan, carryover, purchased, by omega, by omega, by omega⟩

/-- Carryover still usable at `now`; without an expiry it does not expire. -/
def liveCarryover (carryoverCredits : ℤ) (expiresAt : Option Instant) (now : Instant) : ℤ :=
  if carryoverCredits ≤ 0 then 0
  else if expiresAt.any (· ≤ now) then 0
  else carryoverCredits

/-- Everything spendable at `now`. -/
def availableTotal (balances : WalletBalances) (expiresAt : Option Instant) (now : Instant) : ℤ :=
  balances.planRemaining + liveCarryover balances.carryoverCredits expiresAt now + balances.purchasedCredits

/-- What is taken from each pool. -/
structure Spend where
  carryover : ℤ
  plan : ℤ
  purchased : ℤ

/-- Carryover first, then the two other pools in the preferred order. -/
def spendOrder (live plan purchased units : ℤ) (purchasedFirst : Bool) : Spend :=
  let carryover := min live units
  let remaining := units - carryover
  if purchasedFirst then
    let fromPurchased := min purchased remaining
    ⟨carryover, min plan (remaining - fromPurchased), fromPurchased⟩
  else
    let fromPlan := min plan remaining
    ⟨carryover, fromPlan, min purchased (remaining - fromPlan)⟩

theorem liveCarryover_nonneg (c : ℤ) (e : Option Instant) (now : Instant) : 0 ≤ liveCarryover c e now := by
  unfold liveCarryover
  split_ifs <;> omega

theorem liveCarryover_le {c : ℤ} (hc : 0 ≤ c) (e : Option Instant) (now : Instant) : liveCarryover c e now ≤ c := by
  unfold liveCarryover
  split_ifs <;> omega

theorem liveCarryover_eq {c : ℤ} (hc : 0 ≤ c) (e : Option Instant) (now : Instant) :
    liveCarryover c e now = if e.any (· ≤ now) then 0 else c := by
  unfold liveCarryover
  split_ifs <;> omega

/-- **The spend**: within each pool, and in all exactly the units asked, as far as there are any. -/
theorem spendOrder_spec {live plan purchased units : ℤ} (hl : 0 ≤ live) (hp : 0 ≤ plan) (hb : 0 ≤ purchased)
    (hu : 0 ≤ units) (first : Bool) :
    let s := spendOrder live plan purchased units first
    0 ≤ s.carryover ∧ s.carryover ≤ live ∧ 0 ≤ s.plan ∧ s.plan ≤ plan ∧ 0 ≤ s.purchased ∧
      s.purchased ≤ purchased ∧ s.carryover + s.plan + s.purchased = min units (live + plan + purchased) := by
  unfold spendOrder
  cases first <;> simp only [Bool.false_eq_true, if_false, if_true] <;> omega

/-- What is taken from each pool is there. -/
def Spend.Within (s : Spend) (b : WalletBalances) : Prop :=
  s.carryover ≤ b.carryoverCredits ∧ s.plan ≤ b.planRemaining ∧ s.purchased ≤ b.purchasedCredits

def WalletBalances.draw (b : WalletBalances) (s : Spend) (h : s.Within b) : WalletBalances where
  planRemaining := b.planRemaining - s.plan
  carryoverCredits := b.carryoverCredits - s.carryover
  purchasedCredits := b.purchasedCredits - s.purchased
  plan_nonneg := by have := h.2.1; omega
  carryover_nonneg := by have := h.1; omega
  purchased_nonneg := by have := h.2.2; omega

theorem spendOrder_within {b : WalletBalances} {units : ℤ} (hu : ¬ units < 0) (e : Option Instant) (now : Instant)
    (first : Bool) :
    (spendOrder (liveCarryover b.carryoverCredits e now) b.planRemaining b.purchasedCredits units first).Within b := by
  have hl := liveCarryover_nonneg b.carryoverCredits e now
  have hle := liveCarryover_le b.carryover_nonneg e now
  obtain ⟨-, hc, -, hp, -, hq, -⟩ := spendOrder_spec hl b.plan_nonneg b.purchased_nonneg (Int.not_lt.1 hu) first
  exact ⟨Int.le_trans hc hle, hp, hq⟩

/-- Spend `units` across the pools, clamped at what there is. -/
def consumeFromWallet (balances : WalletBalances) (units : ℤ) (expiresAt : Option Instant) (now : Instant)
    (purchasedFirst : Bool) : Except PyError WalletBalances :=
  if hu : units < 0 then .error ⟨.valueError, s!"units cannot be negative (got {units})."⟩
  else if units = 0 then .ok balances
  else .ok (balances.draw _ (spendOrder_within hu expiresAt now purchasedFirst))

/-- **What a consumption takes**: nothing from an expired carryover, never more than a pool holds, and in all the
units asked as far as the wallet has them. -/
theorem consumeFromWallet_spec {b b' : WalletBalances} {units : ℤ} {e : Option Instant} {now : Instant}
    {first : Bool} (h : consumeFromWallet b units e now first = .ok b') :
    ∃ c p q : ℤ, b'.carryoverCredits = b.carryoverCredits - c ∧ b'.planRemaining = b.planRemaining - p ∧
      b'.purchasedCredits = b.purchasedCredits - q ∧ 0 ≤ c ∧ c ≤ liveCarryover b.carryoverCredits e now ∧
      0 ≤ p ∧ 0 ≤ q ∧ 0 ≤ units ∧ c + p + q = min units (availableTotal b e now) := by
  unfold consumeFromWallet at h
  have hl := liveCarryover_nonneg b.carryoverCredits e now
  have hp := b.plan_nonneg
  have hb := b.purchased_nonneg
  split_ifs at h with hu hz
  · cases h
    refine ⟨0, 0, 0, by omega, by omega, by omega, Int.le_refl _, hl, Int.le_refl _, Int.le_refl _, by omega, ?_⟩
    unfold availableTotal
    omega
  · cases h
    obtain ⟨hc0, hcl, hp0, -, hq0, -, hsum⟩ := spendOrder_spec hl hp hb (Int.not_lt.1 hu) first
    refine ⟨_, _, _, rfl, rfl, rfl, hc0, hcl, hp0, hq0, by omega, ?_⟩
    rw [hsum]
    unfold availableTotal
    omega

/-- The pool that is spent right after the carryover. -/
def WalletBalances.preferred (b : WalletBalances) (purchasedFirst : Bool) : ℤ :=
  if purchasedFirst then b.purchasedCredits else b.planRemaining

def WalletBalances.lastPool (b : WalletBalances) (purchasedFirst : Bool) : ℤ :=
  if purchasedFirst then b.planRemaining else b.purchasedCredits

/-- No pool of `b'` is negative, or larger than in `b`. -/
def WalletBalances.Shrunk (b' b : WalletBalances) : Prop :=
  (0 ≤ b'.planRemaining ∧ b'.planRemaining ≤ b.planRemaining) ∧
    (0 ≤ b'.carryoverCredits ∧ b'.carryoverCredits ≤ b.carryoverCredits) ∧
    0 ≤ b'.purchasedCredits ∧ b'.purchasedCredits ≤ b.purchasedCredits

@[ext] theorem WalletBalances.ext {b b' : WalletBalances} (hplan : b.planRemaining = b'.planRemaining)
    (hcarryover : b.carryoverCredits = b'.carryoverCredits) (hpurchased : b.purchasedCredits = b'.purchasedCredits) :
    b = b' := by
  cases b
  cases b'
  cases hplan
  cases hcarryover
  cases hpurchased
  rfl

@[simp] theorem preferred_true (b : WalletBalances) : b.preferred true = b.purchasedCredits := rfl

@[simp] theorem preferred_false (b : WalletBalances) : b.preferred false = b.planRemaining := rfl

@[simp] theorem lastPool_true (b : WalletBalances) : b.lastPool true = b.planRemaining := rfl

@[simp] theorem lastPool_false (b : WalletBalances) : b.lastPool false = b.purchasedCredits := rfl

theorem sub_min_eq (pool asked : ℤ) : asked - min pool asked = max 0 (asked - pool) := by omega

theorem left_eq {pool asked : ℤ} : pool - min pool asked = max 0 (pool - asked) := by omega

theorem left_add (pool : ℤ) {u v : ℤ} (hv : 0 ≤ v) : max 0 (max 0 (pool - u) - v) = max 0 (pool - (u + v)) := by omega

theorem passed_add {pool u v : ℤ} (hv : 0 ≤ v) :
    max 0 (u - pool) + max 0 (v - max 0 (pool - u)) = max 0 (u + v - pool) := by omega

/-- The pools after a consumption, each spent once those before it are empty. -/
theorem consume_eq (b : WalletBalances) {units : ℤ} (hu : 0 ≤ units) (e : Option Instant) (now : Instant) (first : Bool) :
    ∃ b', consumeFromWallet b units e now first = .ok b' ∧
      b'.carryoverCredits = b.carryoverCredits - min (liveCarryover b.carryoverCredits e now) units ∧
      b'.preferred first = max 0 (b.preferred first - max 0 (units - liveCarryover b.carryoverCredits e now)) ∧
      b'.lastPool first = max 0 (b.lastPool first -
        max 0 (max 0 (units - liveCarryover b.carryoverCredits e now) - b.preferred first)) := by
  have hl := liveCarryover_nonneg b.carryoverCredits e now
  have hp := b.plan_nonneg
  have hq := b.purchased_nonneg
  unfold consumeFromWallet
  rw [dif_neg (by omega)]
  by_cases hz : units = 0
  · refine ⟨b, if_pos hz, by omega, ?_⟩
    cases first <;> simp only [preferred_true, preferred_false, lastPool_true, lastPool_false] <;> omega
  · have hfirst : ∀ pool live : ℤ, 0 ≤ pool →
        pool - min pool (units - min live units) = max 0 (pool - max 0 (units - live)) := by
      intro pool live hpool
      rw [sub_min_eq live, left_eq]
    have hlast : ∀ pool last live : ℤ, 0 ≤ last →
        last - min last (units - min live units - min pool (units - min live units)) =
          max 0 (last - max 0 (max 0 (units - live) - pool)) := by
      intro pool last live hrest
      rw [sub_min_eq live, sub_min_eq pool, left_eq]
    refine ⟨_, if_neg hz, ?_⟩
    cases first with
    | false => exact ⟨rfl, hfirst _ _ hp, hlast _ _ _ hq⟩
    | true => exact ⟨rfl, hfirst _ _ hq, hlast _ _ _ hp⟩

theorem liveCarryover_spent {c units : ℤ} (hc : 0 ≤ c) (hu : 0 ≤ units) (e : Option Instant) (now : Instant) :
    liveCarryover (c - min (liveCarryover c e now) units) e now =
      liveCarryover c e now - min (liveCarryover c e now) units := by
  have hle := liveCarryover_le hc e now
  rw [liveCarryover_eq (by omega), liveCarryover_eq hc]
  split_ifs <;> omega

theorem preferred_nonneg (b : WalletBalances) (first : Bool) : 0 ≤ b.preferred first := by
  cases first with
  | false => exact b.plan_nonneg
  | true => exact b.purchased_nonneg

theorem lastPool_nonneg (b : WalletBalances) (first : Bool) : 0 ≤ b.lastPool first := by
  cases first with
  | false => exact b.purchased_nonneg
  | true => exact b.plan_nonneg

/-- Two consumptions one after the other are one of both. -/
theorem consume_add {b b' : WalletBalances} {u v : ℤ} (hu : 0 ≤ u) (hv : 0 ≤ v) {e : Option Instant} {now : Instant}
    {first : Bool} (h : consumeFromWallet b u e now first = .ok b') :
    consumeFromWallet b' v e now first = consumeFromWallet b (u + v) e now first := by
  obtain ⟨b₁, h₁, hc₁, hp₁, hq₁⟩ := consume_eq b hu e now first
  obtain rfl : b' = b₁ := Except.ok.inj (h.symm.trans h₁)
  obtain ⟨b₂, h₂, hc₂, hp₂, hq₂⟩ := consume_eq b' hv e now first
  obtain ⟨b₃, h₃, hc₃, hp₃, hq₃⟩ := consume_eq b (Int.add_nonneg hu hv) e now first
  have hl := liveCarryover_nonneg b.carryoverCredits e now
  have hlive : liveCarryover b'.carryoverCredits e now = max 0 (liveCarryover b.carryoverCredits e now - u) := by
    rw [hc₁, liveCarryover_spent b.carryover_nonneg hu, left_eq]
  rw [hlive] at hc₂ hp₂ hq₂
  generalize liveCarryover b.carryoverCredits e now = live at *
  have hcarryover : b₂.carryoverCredits = b₃.carryoverCredits := by
    clear hp₁ hp₂ hp₃ hq₁ hq₂ hq₃
    omega
  -- What the two consumptions ask of the preferred pool is what both ask of it at once; and so for the last pool.
  have hasked : max 0 (u - live) + max 0 (v - max 0 (live - u)) = max 0 (u + v - live) := passed_add hv
  have hpreferred : b₂.preferred first = b₃.preferred first := by
    rw [hp₂, hp₁, left_add _ (Int.le_max_left 0 _), hasked, hp₃]
  have hlast : b₂.lastPool first = b₃.lastPool first := by
    rw [hq₂, hp₁, hq₁, left_add _ (Int.le_max_left 0 _), passed_add (Int.le_max_left 0 _), hasked, hq₃]
  rw [h₂, h₃]
  cases first with
  | false => rw [@WalletBalances.ext b₂ b₃ hpreferred hcarryover hlast]
  | true => rw [@WalletBalances.ext b₂ b₃ hlast hcarryover hpreferred]

theorem availableTotal_eq (b : WalletBalances) (e : Option Instant) (now : Instant) (first : Bool) :
    availableTotal b e now = liveCarryover b.carryoverCredits e now + b.preferred first + b.lastPool first := by
  unfold availableTotal
  cases first with
  | false =>
    rw [preferred_false, lastPool_false]
    omega
  | true =>
    rw [preferred_true, lastPool_true]
    omega

/-- **Conservation**: a consumption takes what is asked as far as it is there, from no pool more than it holds and nothing
from an expired carryover, each pool in its turn; and two consumptions one after the other are one of both. -/
theorem consumption_conserves (b : WalletBalances) {units : ℤ} (hu : 0 ≤ units) (expiresAt : Option Instant) (now : Instant)
    (purchasedFirst : Bool) :
    ∃ b', consumeFromWallet b units expiresAt now purchasedFirst = .ok b' ∧
      availableTotal b expiresAt now - availableTotal b' expiresAt now = min units (availableTotal b expiresAt now) ∧
      b'.Shrunk b ∧
      (expiresAt.any (· ≤ now) = true → b'.carryoverCredits = b.carryoverCredits) ∧
      (b'.planRemaining ≠ b.planRemaining ∨ b'.purchasedCredits ≠ b.purchasedCredits →
        liveCarryover b'.carryoverCredits expiresAt now = 0) ∧
      (b'.lastPool purchasedFirst ≠ b.lastPool purchasedFirst → b'.preferred purchasedFirst = 0) ∧
      ∀ v, 0 ≤ v → consumeFromWallet b' v expiresAt now purchasedFirst =
        consumeFromWallet b (units + v) expiresAt now purchasedFirst := by
  obtain ⟨b', h, hcarryover, hpreferred, hlast⟩ := consume_eq b hu expiresAt now purchasedFirst
  have hl := liveCarryover_nonneg b.carryoverCredits expiresAt now
  have hlive := liveCarryover_spent b.carryover_nonneg hu expiresAt now
  rw [← hcarryover] at hlive
  have hp := preferred_nonneg b purchasedFirst
  have hq := lastPool_nonneg b purchasedFirst
  refine ⟨b', h, ?_, ?_, fun hexpired => ?_, fun htouched => ?_, fun htouched => ?_, fun v hv =>
    consume_add hu hv h⟩
  · rw [availableTotal_eq b expiresAt now purchasedFirst, availableTotal_eq b' expiresAt now purchasedFirst, hlive]
    omega
  · have hcarryover' := b'.carryover_nonneg
    cases purchasedFirst with
    | false =>
      simp only [preferred_false, lastPool_false] at hp hq hpreferred hlast
      exact ⟨by omega, by omega, by omega⟩
    | true =>
      simp only [preferred_true, lastPool_true] at hp hq hpreferred hlast
      exact ⟨by omega, by omega, by omega⟩
  · rw [liveCarryover_eq b.carryover_nonneg, if_pos hexpired] at hcarryover
    omega
  · rw [hlive]
    cases purchasedFirst with
    | false =>
      simp only [preferred_false, lastPool_false] at hp hq hpreferred hlast
      omega
    | true =>
      simp only [preferred_true, lastPool_true] at hp hq hpreferred hlast
      omega
  · omega

/-- Three credits of each kind, of which seven are spent. -/
theorem consumption_conserves_seven :
    ∃ b', consumeFromWallet ⟨3, 3, 3, by decide, by decide, by decide⟩ 7 (some 10) 9 true = .ok b' ∧
      (3 + 3 + 3) - availableTotal b' (some 10) 9 = 7 := by
  obtain ⟨b', h, htotal, -⟩ :=
    consumption_conserves ⟨3, 3, 3, by decide, by decide, by decide⟩ (by decide : (0 : ℤ) ≤ 7) (some 10) 9 true
  exact ⟨b', h, htotal⟩

theorem balances_error {p c q : ℤ} {e : PyError} (h : WalletBalances.of p c q = .error e) :
    e.cls.retryable = false := by
  unfold WalletBalances.of at h
  split_ifs at h <;> cases h <;> rfl

theorem consumeFromWallet_error {b : WalletBalances} {units : ℤ} {x : Option Instant} {now : Instant} {first : Bool}
    {e : PyError} (h : consumeFromWallet b units x now first = .error e) : e.cls.retryable = false := by
  unfold consumeFromWallet at h
  split_ifs at h
  cases h
  rfl

theorem balances_ok {p c q : ℤ} {b : WalletBalances} (h : WalletBalances.of p c q = .ok b) :
    b.planRemaining = p ∧ b.carryoverCredits = c ∧ b.purchasedCredits = q := by
  unfold WalletBalances.of at h
  split_ifs at h
  cases h
  exact ⟨rfl, rfl, rfl⟩

end Balances

/-! ## The plan bucket -/

section Bucket

/-- A monthly bucket: what is left is within what was granted. -/
structure Credit where
  allowance : ℤ
  remaining : ℤ
  allowance_nonneg : 0 ≤ allowance
  remaining_nonneg : 0 ≤ remaining
  remaining_le : remaining ≤ allowance

/-- The bucket of stored numbers, validated. -/
def Credit.of (allowance remaining : ℤ) : Except PyError Credit :=
  if ha : allowance < 0 then .error ⟨.valueError, "credit allowance cannot be negative."⟩
  else if hr : remaining < 0 then .error ⟨.valueError, "Remaining credits cannot be negative."⟩
  else if hle : allowance < remaining then .error ⟨.valueError, "Remaining credits cannot exceed allowance."⟩
  else .ok ⟨allowance, remaining, by omega, by omega, by omega⟩

/-- A bucket at the full monthly grant of a tier. -/
def Credit.fromTier (tier : SubscriptionTier) : Except PyError Credit :=
  match (TierPolicy.forTier tier).monthlyConversionCredits with
  | none => .error ⟨.guestTierHasNoPersistentCredits, "Guest tier does not use persistent monthly credits."⟩
  | some grant => .ok ⟨grant, grant, by omega, by omega, Int.le_refl _⟩

theorem credit_of_ok {allowance remaining : ℤ} {c : Credit} (h : Credit.of allowance remaining = .ok c) :
    c.allowance = allowance ∧ c.remaining = remaining := by
  unfold Credit.of at h
  split_ifs at h
  cases h
  exact ⟨rfl, rfl⟩

theorem fromTier_ok {tier : SubscriptionTier} {c : Credit} (h : Credit.fromTier tier = .ok c) :
    ∃ grant : ℕ, (TierPolicy.forTier tier).monthlyConversionCredits = some grant ∧ c.allowance = grant ∧
      c.remaining = grant := by
  unfold Credit.fromTier at h
  split at h
  · cases h
  · rename_i grant hgrant
    cases h
    exact ⟨grant, hgrant, rfl, rfl⟩

theorem of_error {a r : ℤ} {e : PyError} (h : Credit.of a r = .error e) : e.cls.retryable = false := by
  unfold Credit.of at h
  split_ifs at h <;> cases h <;> rfl

theorem fromTier_error {tier : SubscriptionTier} {e : PyError} (h : Credit.fromTier tier = .error e) :
    e.cls.retryable = false := by
  unfold Credit.fromTier at h
  split at h
  · cases h
    rfl
  · cases h

end Bucket

end Transform.Billing
