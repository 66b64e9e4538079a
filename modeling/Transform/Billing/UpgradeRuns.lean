import Transform.Lib.Watch
import Transform.Billing.LostUpdate
import Transform.Billing.Upgrade

/-!
# Billing.UpgradeRuns — an upgrade, applied once

Any number of requests for one upgrade, and of the activations that Stripe sends once it bills the new price, interleaved
exchange by exchange.  An upgrade is applied where the bucket holds the new grant, the carryover holds what was live and
what was unspent before, and expires with the old period.  `upgrade_applied_once` gives the condition on the commits of a
run under which this stands as soon as the writes of one request took effect, and as long as the run goes on.
-/

namespace Transform.Billing

open Lib Conversions

/-! ## The wallet before an upgrade and after it -/

section Wallet

/-- The wallet that an upgrade starts from: the row, the bucket of the period and the period's end. -/
structure Before where
  row : SubscriptionRow
  bucket : Option CreditRow
  periodKey : String
  periodEnd : Option Instant
  now : Instant

namespace Before

variable (b : Before) (userId : ℤ) (tier : SubscriptionTier) (db : Database)

/-- The plan credits that are unspent: the grant of the tier where there is no bucket. -/
def unspent : ℤ :=
  match b.bucket with
  | some bucket => bucket.remaining
  | none => monthlyGrant b.row.tier

def live : ℤ := liveCarryover b.row.carryoverCredits b.row.carryoverExpiresAt b.now

/-- The tables hold this wallet. -/
structure Describes : Prop where
  row : db.subscriptions userId = some b.row
  bucket : db.credits userId b.periodKey = b.bucket

/-- The upgrade is applied: the new grant, and what was live and unspent until the old period ends. -/
structure Applied : Prop where
  wallet : ∃ row, db.subscriptions userId = some row ∧ row.carryoverCredits = b.live + b.unspent ∧
    row.carryoverExpiresAt = b.periodEnd ∧ row.purchasedCredits = b.row.purchasedCredits
  plan : planBalance userId b.periodKey db = monthlyGrant tier

/-- There was nothing to carry over, the stored expiry is the period's end already, and the new grant stands. -/
def NothingToCarry : Prop :=
  b.unspent = 0 ∧ b.row.carryoverExpiresAt = b.periodEnd ∧ planBalance userId b.periodKey db = monthlyGrant tier

/-- The bucket is as before, or raised by an activation. -/
def Raised (bucket : Option CreditRow) : Prop :=
  bucket = b.bucket ∨ ∃ grant, (TierPolicy.forTier tier).monthlyConversionCredits = some grant ∧
    bucket = regranted b.bucket grant

/-- The row and the bucket, until the writes of a request took effect and from then on. -/
structure Standing (carried : Bool) (row : SubscriptionRow) (bucket : Option CreditRow) : Prop where
  purchased : row.purchasedCredits = b.row.purchasedCredits
  until_carried : carried = false → row.carryoverCredits = b.row.carryoverCredits ∧
    row.carryoverExpiresAt = b.row.carryoverExpiresAt ∧ b.Raised tier bucket
  once_carried : carried = true → row.tier = tier ∧ row.carryoverCredits = b.row.carryoverCredits + b.unspent ∧
    row.carryoverExpiresAt = b.periodEnd ∧ bucket = some (fullBucket tier)

end Before

end Wallet

/-! ## What the writes leave -/

section Writes

variable {b : Before} {tier : SubscriptionTier} {carried : Bool} {current : SubscriptionRow} {bucket : Option CreditRow}

@[simp] theorem flushed_new {α : Type} [DecidableEq α] (old new : α) : flushed old new new = new := by
  unfold flushed
  split_ifs <;> rfl

/-- A bucket that is as it was read, or as it is asked for, is left as it is asked for. -/
theorem flush_to {old new cur : CreditRow} (h : cur = new ∨ cur = old) : old.flush new cur = new := by
  rcases h with rfl | rfl
  · simp [CreditRow.flush]
  · simp [CreditRow.flush]

theorem monthlyGrant_of {grant : ℕ} (h : (TierPolicy.forTier tier).monthlyConversionCredits = some grant) :
    monthlyGrant tier = grant := by
  unfold monthlyGrant
  rw [h]
  rfl

theorem fullBucket_of {grant : ℕ} (h : (TierPolicy.forTier tier).monthlyConversionCredits = some grant) :
    fullBucket tier = ⟨grant, grant⟩ := by
  unfold fullBucket
  rw [monthlyGrant_of h]

theorem regranted_regranted (bucket : Option CreditRow) (grant : ℕ) :
    regranted (regranted bucket grant) grant = regranted bucket grant := by
  have hgranted : ∀ row : CreditRow, row.allowance = grant → regranted (some row) grant = some row := by
    intro row hrow
    rw [regranted, if_neg]
    omega
  rcases bucket with _ | row
  · exact hgranted _ rfl
  · by_cases h : row.Valid ∧ row.allowance < grant
    · have hraised : regranted (some row) grant = some ⟨grant, min (row.remaining + (grant - row.allowance)) grant⟩ := by
        rw [regranted, if_pos h]
      rw [hraised]
      exact hgranted _ rfl
    · have hleft : regranted (some row) grant = some row := by
        rw [regranted, if_neg h]
      rw [hleft, hleft]

theorem regranted_of_raised {grant : ℕ} (hgrant : (TierPolicy.forTier tier).monthlyConversionCredits = some grant)
    (h : b.Raised tier bucket) : regranted bucket grant = regranted b.bucket grant := by
  rcases h with rfl | ⟨grant', hgrant', rfl⟩
  · rfl
  · obtain rfl : grant = grant' := by
      rw [hgrant] at hgrant'
      exact Option.some.inj hgrant'
    exact regranted_regranted _ _

/-- An activation that finds nothing spent in a bucket fills it. -/
theorem full_of_unspent {grant : ℕ} {target : CreditRow}
    (hgrant : (TierPolicy.forTier tier).monthlyConversionCredits = some grant)
    (htarget : regranted bucket grant = some target) (hne : bucket ≠ some target)
    (h : ∀ row, bucket = some row → row.allowance ≤ row.remaining) : target = fullBucket tier := by
  rw [fullBucket_of hgrant]
  rcases bucket with _ | row
  · exact (Option.some.inj htarget).symm
  · have hspent := h row rfl
    unfold regranted at htarget
    dsimp only at htarget
    split_ifs at htarget with hvalid
    · have hmin : min (row.remaining + (grant - row.allowance)) (grant : ℤ) = grant := min_eq_right (by omega)
      rw [hmin] at htarget
      exact (Option.some.inj htarget).symm
    · exact absurd htarget hne

theorem apply_raise {staged : Option CreditRow} {target : CreditRow} (hstaged : staged = bucket ∨ staged = b.bucket)
    (hbucket : bucket = b.bucket ∨ bucket = some target) (hthere : staged.isSome → bucket.isSome) :
    (stagedWrite staged target).apply CreditRow.flush bucket = some target := by
  rcases staged with _ | old
  · rfl
  · obtain ⟨cur, rfl⟩ := Option.isSome_iff_exists.1 (hthere rfl)
    show some (old.flush target cur) = some target
    refine congrArg some (flush_to ?_)
    rcases hbucket with hcur | hcur
    · refine .inr ?_
      rcases hstaged with hold | hold
      · exact (Option.some.inj hold).symm
      · exact Option.some.inj (hcur.trans hold.symm)
    · exact .inl (Option.some.inj hcur)

theorem apply_full {staged : Option CreditRow} (hraised : b.Raised tier bucket)
    (hstaged : staged = bucket ∨ staged = b.bucket) (hthere : staged.isSome → bucket.isSome) :
    (stagedWrite staged (fullBucket tier)).apply CreditRow.flush bucket = some (fullBucket tier) := by
  rcases staged with _ | old
  · rfl
  · obtain ⟨cur, rfl⟩ := Option.isSome_iff_exists.1 (hthere rfl)
    show some (old.flush (fullBucket tier) cur) = some (fullBucket tier)
    refine congrArg some ?_
    rcases hstaged with hold | hold
    · exact flush_to (.inr (Option.some.inj hold).symm)
    · rcases hraised with hcur | ⟨grant, hgrant, hcur⟩
      · exact flush_to (.inr (Option.some.inj (hcur.trans hold.symm)))
      · rw [← hold] at hcur
        unfold regranted at hcur
        dsimp only at hcur
        split_ifs at hcur with hvalid
        · -- both columns of the bucket that was read are below the grant
          obtain ⟨⟨h0, hle⟩, hlt⟩ := hvalid
          have hremaining : (grant : ℤ) ≠ old.remaining := by omega
          rw [Option.some.inj hcur, fullBucket_of hgrant]
          simp [CreditRow.flush, flushed, hremaining]
        · exact flush_to (.inr (Option.some.inj hcur))

end Writes

/-! ## What the commits leave -/

section Commits

def Before.Stands (b : Before) (userId : ℤ) (tier : SubscriptionTier) (carried : Bool) (db : Database) : Prop :=
  ∃ row, db.subscriptions userId = some row ∧ b.Standing tier carried row (db.credits userId b.periodKey)

variable {b : Before} {userId : ℤ} {tier : SubscriptionTier} {carried : Bool} {db : Database} {tx : Transaction}
  {n : UpgradeNotes}

theorem stale_credit {key : String} {write : RowWrite CreditRow} (htx : tx.credit = some (userId, key, write))
    (hst : db.stale tx = false) : write.stale (db.credits userId key) = false := by
  simp only [Database.stale, htx, Option.any_some, Bool.or_eq_false_iff] at hst
  exact hst.2

theorem there_of_not_stale {staged : Option CreditRow} {target : CreditRow} {bucket : Option CreditRow}
    (h : (stagedWrite staged target).stale bucket = false) : staged.isSome → bucket.isSome := by
  intro hs
  obtain ⟨old, rfl⟩ := Option.isSome_iff_exists.1 hs
  have hnone : bucket.isNone = false := h
  simpa using hnone

theorem commit_credit_of_ne {key periodKey : String} {write : RowWrite CreditRow}
    (htx : tx.credit = some (userId, key, write)) (hne : periodKey ≠ key) :
    (db.commit tx).credits userId periodKey = db.credits userId periodKey := by
  simp [Database.commit, htx, hne]

/-- An activation's row leaves the wallet. -/
theorem stands_tier (h : TierAsks userId tier tx) (hv : db.violates tx = false) (hst : db.stale tx = false)
    (hI : b.Stands userId tier carried db) : b.Stands userId tier carried (db.commit tx) := by
  obtain ⟨row, hrow, hpurchased, huntil, honce⟩ := hI
  obtain ⟨hcredit, customer, subscription, hinsert | ⟨old, hupdate⟩⟩ := h
  · have hnone := (subscriptions_commit_insert hinsert hv).1
    rw [hrow] at hnone
    cases hnone
  · obtain ⟨current, hcur, hnew⟩ := subscriptions_commit_update hupdate hst
    obtain rfl : row = current := Option.some.inj (hrow.symm.trans hcur)
    refine ⟨_, hnew, ?_, ?_, ?_⟩
    · show flushed old.purchasedCredits old.purchasedCredits row.purchasedCredits = _
      rw [flushed_same, hpurchased]
    · intro hc
      obtain ⟨hcredits, hexpiry, hraised⟩ := huntil hc
      rw [commit_no_credit hcredit]
      refine ⟨?_, ?_, hraised⟩
      · show flushed old.carryoverCredits old.carryoverCredits row.carryoverCredits = _
        rw [flushed_same, hcredits]
      · show flushed old.carryoverExpiresAt old.carryoverExpiresAt row.carryoverExpiresAt = _
        rw [flushed_same, hexpiry]
    · intro hc
      obtain ⟨htier, hcredits, hexpiry, hfull⟩ := honce hc
      rw [commit_no_credit hcredit]
      refine ⟨?_, ?_, ?_, hfull⟩
      · show flushed old.tier tier row.tier = tier
        rw [htier, flushed_new]
      · show flushed old.carryoverCredits old.carryoverCredits row.carryoverCredits = _
        rw [flushed_same, hcredits]
      · show flushed old.carryoverExpiresAt old.carryoverExpiresAt row.carryoverExpiresAt = _
        rw [flushed_same, hexpiry]

/-- What a session has read of the wallet: until a request's writes took effect, the bucket as before or raised. -/
structure Before.Noted (b : Before) (userId : ℤ) (tier : SubscriptionTier) (carried : Bool) (db : Database)
    (n : UpgradeNotes) : Prop where
  row : ∀ row, n.row = some (some row) → row.tier ≠ tier → row.carryoverCredits = b.row.carryoverCredits ∧
    row.carryoverExpiresAt = b.row.carryoverExpiresAt
  bucket : carried = false → n.key = some b.periodKey → ∀ bucket, n.bucket = some bucket → b.Raised tier bucket
  staged : carried = false → n.key = some b.periodKey → ∀ staged, n.staged = some staged →
    staged = db.credits userId b.periodKey ∨ staged = b.bucket
  unread : n.key = none → n.bucket = none ∧ n.staged = none

/-- The bucket that was read first has nothing spent. -/
def UpgradeNotes.NothingSpent (n : UpgradeNotes) : Prop := ∀ row ∈ n.bucket.join, row.allowance ≤ row.remaining

instance (n : UpgradeNotes) : Decidable n.NothingSpent := inferInstanceAs (Decidable (∀ row ∈ n.bucket.join, _))

/-- Until a request's writes took effect, an activation leaves the bucket as it stands or makes of it the raised one. -/
theorem raised_commit (h : BucketAsks userId tier n tx) (hst : db.stale tx = false) (hn : b.Noted userId tier false db n)
    (hraised : b.Raised tier (db.credits userId b.periodKey)) :
    (db.commit tx).credits userId b.periodKey = db.credits userId b.periodKey ∨
      ∃ grant, (TierPolicy.forTier tier).monthlyConversionCredits = some grant ∧
        (db.commit tx).credits userId b.periodKey = regranted b.bucket grant := by
  obtain ⟨key, bucket, staged, grant, target, hkey, hbucket, hstaged, hgrant, htarget, -, -, hcredit⟩ := h
  by_cases hk : b.periodKey = key
  · subst hk
    have hread := hn.bucket rfl hkey bucket hbucket
    have htarget' : regranted b.bucket grant = some target := by rw [← regranted_of_raised hgrant hread, htarget]
    have hnow : db.credits userId b.periodKey = b.bucket ∨ db.credits userId b.periodKey = some target := by
      refine hraised.imp id ?_
      rintro ⟨grant', hgrant', hcur⟩
      obtain rfl : grant = grant' := by
        rw [hgrant] at hgrant'
        exact Option.some.inj hgrant'
      rw [hcur, htarget']
    refine .inr ⟨grant, hgrant, ?_⟩
    rw [commit_credit hcredit, apply_raise (hn.staged rfl hkey staged hstaged) hnow
      (there_of_not_stale (stale_credit hcredit hst)), htarget']
  · exact .inl (commit_credit_of_ne hcredit hk)

/-- An activation raises the bucket, and where it is full leaves it. -/
theorem stands_bucket (h : BucketAsks userId tier n tx) (hst : db.stale tx = false) (hn : b.Noted userId tier carried db n)
    (hfresh : carried = true → n.key = some b.periodKey → n.NothingSpent) (hI : b.Stands userId tier carried db) :
    b.Stands userId tier carried (db.commit tx) := by
  obtain ⟨row, hrow, hpurchased, huntil, honce⟩ := hI
  have hasks := h
  obtain ⟨key, bucket, staged, grant, target, hkey, hbucket, hstaged, hgrant, htarget, hne, hsub, hcredit⟩ := h
  refine ⟨row, ?_, hpurchased, ?_, ?_⟩
  · rw [subscriptions_commit_none hsub, hrow]
  · intro hc
    obtain ⟨hcredits, hexpiry, hraised⟩ := huntil hc
    refine ⟨hcredits, hexpiry, ?_⟩
    rcases raised_commit hasks hst (hc ▸ hn) hraised with hkept | ⟨grant, hgrant, hnew⟩
    · rw [hkept]
      exact hraised
    · exact .inr ⟨grant, hgrant, hnew⟩
  · intro hc
    obtain ⟨htier, hcredits, hexpiry, hfull⟩ := honce hc
    refine ⟨htier, hcredits, hexpiry, ?_⟩
    by_cases hk : b.periodKey = key
    · subst hk
      have hspent := hfresh hc hkey
      obtain rfl := full_of_unspent hgrant htarget hne fun row hrow' => hspent row (by rw [hbucket, hrow']; rfl)
      rw [commit_credit hcredit, hfull]
      rcases staged with _ | old
      · rfl
      · exact congrArg some (flush_to (.inl rfl))
    · rw [commit_credit_of_ne hcredit hk]
      exact hfull

/-- A request whose reads are those of the wallet before applies the upgrade, also where another one has. -/
theorem stands_request (h : RequestAsks userId tier n tx) (hst : db.stale tx = false)
    (hn : b.Noted userId tier carried db n) (hplan : n.plan = b.unspent) (hkey : n.key = some b.periodKey)
    (hend : n.answer.map (·.previousPeriodEnd) = some b.periodEnd) (hI : b.Stands userId tier carried db) :
    b.Stands userId tier true (db.commit tx) := by
  obtain ⟨row, hrow, hpurchased, huntil, honce⟩ := hI
  obtain ⟨old, result, key, staged, hold, hchanges, hanswer, hkey', -, hstaged, hsub, hcredit⟩ := h
  obtain rfl : b.periodKey = key := Option.some.inj (hkey.symm.trans hkey')
  have hperiod : result.previousPeriodEnd = b.periodEnd := by
    rw [hanswer] at hend
    exact Option.some.inj hend
  obtain ⟨hcarry, hexpiry⟩ := hn.row old hold hchanges
  obtain ⟨current, hcur, hnew⟩ := subscriptions_commit_update hsub hst
  obtain rfl : row = current := Option.some.inj (hrow.symm.trans hcur)
  refine ⟨_, hnew, ?_, fun hc => (by cases hc), fun _ => ⟨?_, ?_, ?_, ?_⟩⟩
  · show flushed old.purchasedCredits old.purchasedCredits row.purchasedCredits = _
    rw [flushed_same, hpurchased]
  · show flushed old.tier tier row.tier = tier
    rw [flushed, if_neg (Ne.symm hchanges)]
  · show flushed old.carryoverCredits (old.carryoverCredits + n.plan) row.carryoverCredits = _
    rw [hplan, hcarry]
    rcases hc : carried with _ | _
    · rw [(huntil hc).1, flushed_current]
    · rw [(honce hc).2.1, flushed_new]
  · show flushed old.carryoverExpiresAt result.previousPeriodEnd row.carryoverExpiresAt = _
    rw [hperiod, hexpiry]
    rcases hc : carried with _ | _
    · rw [(huntil hc).2.1, flushed_current]
    · rw [(honce hc).2.2.1, flushed_new]
  · rw [commit_credit hcredit]
    rcases hc : carried with _ | _
    · exact apply_full (huntil hc).2.2 (hn.staged hc hkey staged hstaged)
        (there_of_not_stale (stale_credit hcredit hst))
    · rw [(honce hc).2.2.2]
      rcases staged with _ | old
      · rfl
      · exact congrArg some (flush_to (.inl rfl))

end Commits

/-! ## The system -/

section System

/-- The tables, whether Stripe bills the new price, whether the writes of a request took effect, and what the sessions have
read. -/
structure UpgradeWorld where
  db : Database
  billed : Bool := false
  carried : Bool := false
  notes : ℕ → UpgradeNotes := fun _ => {}

/-- Stripe changes the subscription; where it raises, it may have done so. -/
def bills : Event BillSig → Bool
  | ⟨.changeSubscriptionPlan _ _ _ _ _, .ok result, _, _⟩ => Option.isSome result
  | ⟨.changeSubscriptionPlan _ _ _ _ _, .error _, took, _⟩ => took
  | _ => false

/-- The writes of a request take effect. -/
def carries : UpgradeJob → Event BillSig → Bool
  | .request, ⟨.commit _, _, took, _⟩ => took
  | _, _ => false

def UpgradeWorld.apply (w : UpgradeWorld) (i : ℕ) (job : UpgradeJob) (ev : Event BillSig) : UpgradeWorld where
  db := w.db.after ev
  billed := w.billed || bills ev
  carried := w.carried || carries job ev
  notes := Function.update w.notes i ((w.notes i).step ev)

/-- The requests for an upgrade and the activations that Stripe sends once it bills it. -/
def upgradeSystem (stripe : StripeService) (cfg : WebhookConfig) (userId : ℤ) (apiTier : ApiTier) : Sys BillSig where
  World := UpgradeWorld
  Tag := UpgradeJob
  spawn w i job p w' :=
    (∀ d, job = .activation d → w.billed = true ∧ Announces cfg userId (apiTierToDomain apiTier) d) ∧
      p = job.program stripe cfg userId apiTier ∧ w' = { w with notes := Function.update w.notes i {} }
  Allowed w _ _ ev := w.db.Allowed ev
  apply := UpgradeWorld.apply

/-- What a commit that takes effect was computed from: a request's, from the unspent credits before and the end of their
period; an activation's of that period's bucket, once a request's writes took effect, from one with nothing spent. -/
def FromBefore (b : Before) (w : UpgradeWorld) (i : ℕ) (job : UpgradeJob) : Event BillSig → Prop
  | ⟨.commit tx, _, true, _⟩ =>
    match job with
    | .request => (w.notes i).plan = b.unspent ∧ (w.notes i).key = some b.periodKey ∧
        (w.notes i).answer.map (·.previousPeriodEnd) = some b.periodEnd
    | .activation _ => w.carried = true → tx.credit.isSome → (w.notes i).key = some b.periodKey →
        (w.notes i).NothingSpent
  | _ => True

instance decidableFromBefore (b : Before) (w : UpgradeWorld) (i : ℕ) (job : UpgradeJob) :
    (ev : Event BillSig) → Decidable (FromBefore b w i job ev)
  | ⟨.commit tx, _, true, _⟩ =>
    match job with
    | .request => inferInstanceAs (Decidable ((w.notes i).plan = b.unspent ∧ (w.notes i).key = some b.periodKey ∧
        (w.notes i).answer.map (·.previousPeriodEnd) = some b.periodEnd))
    | .activation _ => inferInstanceAs (Decidable (w.carried = true → tx.credit.isSome →
        (w.notes i).key = some b.periodKey → (w.notes i).NothingSpent))
  | ⟨.commit _, _, false, _⟩ | ⟨.utcNow, _, _, _⟩ | ⟨.uuid4, _, _, _⟩ | ⟨.getSubscription _, _, _, _⟩
  | ⟨.selectSubscription _, _, _, _⟩ | ⟨.selectCredit _ _, _, _, _⟩ | ⟨.listTransactions _ _, _, _, _⟩
  | ⟨.changeSubscriptionPlan _ _ _ _ _, _, _, _⟩ | ⟨.respond _, _, _, _⟩ => isTrue trivial

/-- The clock stands in the period, and Stripe tells its end. -/
def Before.Within (b : Before) : Event BillSig → Prop
  | ⟨.utcNow, .ok now, _, _⟩ => currentPeriodKey now = b.periodKey
  | ⟨.changeSubscriptionPlan _ _ _ _ _, .ok result, _, _⟩ =>
    Option.map PlanChangeResult.previousPeriodEnd result = some b.periodEnd
  | _ => True

instance Before.decidableWithin (b : Before) : (ev : Event BillSig) → Decidable (b.Within ev)
  | ⟨.utcNow, .ok now, _, _⟩ => inferInstanceAs (Decidable (currentPeriodKey now = b.periodKey))
  | ⟨.changeSubscriptionPlan _ _ _ _ _, .ok result, _, _⟩ =>
    inferInstanceAs (Decidable (Option.map PlanChangeResult.previousPeriodEnd result = some b.periodEnd))
  | ⟨.utcNow, .error _, _, _⟩ | ⟨.changeSubscriptionPlan _ _ _ _ _, .error _, _, _⟩ | ⟨.commit _, _, _, _⟩
  | ⟨.uuid4, _, _, _⟩ | ⟨.getSubscription _, _, _, _⟩ | ⟨.selectSubscription _, _, _, _⟩ | ⟨.selectCredit _ _, _, _, _⟩
  | ⟨.listTransactions _ _, _, _, _⟩ | ⟨.respond _, _, _, _⟩ => isTrue trivial

variable {stripe : StripeService} {cfg : WebhookConfig} {userId : ℤ} {apiTier : ApiTier} {tier : SubscriptionTier}
  {b : Before} {w : UpgradeWorld} {i : ℕ} {job : UpgradeJob} {n : UpgradeNotes}

/-- Every commit is computed from the wallet before. -/
def ComputedBefore (b : Before) (c : (upgradeSystem stripe cfg userId apiTier).Config) (i : ℕ) (job : UpgradeJob)
    (ev : Event BillSig) : Prop :=
  FromBefore b c.world i job ev

def decidableComputedBefore (b : Before) (c : (upgradeSystem stripe cfg userId apiTier).Config) (i : ℕ) (job : UpgradeJob)
    (ev : Event BillSig) : Decidable (ComputedBefore b c i job ev) :=
  decidableFromBefore b c.world i job ev

def WithinPeriod (b : Before) (_ : (upgradeSystem stripe cfg userId apiTier).Config) (_ : ℕ) (_ : UpgradeJob)
    (ev : Event BillSig) : Prop :=
  b.Within ev

def decidableWithinPeriod (b : Before) (c : (upgradeSystem stripe cfg userId apiTier).Config) (i : ℕ) (job : UpgradeJob)
    (ev : Event BillSig) : Decidable (WithinPeriod b c i job ev) :=
  b.decidableWithin ev

theorem noted_start (carried : Bool) (db : Database) : b.Noted userId tier carried db {} :=
  ⟨fun _ h => (by cases h), fun _ h => (by cases h), fun _ h => (by cases h), fun _ => ⟨rfl, rfl⟩⟩

/-- What was read stays read where the tables change. -/
theorem noted_of_db {carried carried' : Bool} {db db' : Database} (h : b.Noted userId tier carried db n)
    (hc : carried' = false → carried = false)
    (hbucket : carried' = false → db.credits userId b.periodKey = db'.credits userId b.periodKey ∨
      db.credits userId b.periodKey = b.bucket) : b.Noted userId tier carried' db' n := by
  refine ⟨h.row, fun hc' hk => h.bucket (hc hc') hk, fun hc' hk staged hs => ?_, h.unread⟩
  rcases h.staged (hc hc') hk staged hs with hstaged | hstaged
  · rw [hstaged]
    exact hbucket hc'
  · exact .inr hstaged

theorem noted_selectSubscription {found : Option SubscriptionRow} (hI : b.Stands userId tier w.carried w.db)
    (hn : b.Noted userId tier w.carried w.db n) (hall : found = w.db.selectSubscription userId) :
    b.Noted userId tier w.carried w.db (n.step (.done (.selectSubscription userId) (.ok found))) := by
  obtain ⟨row, hrow, -, huntil, honce⟩ := hI
  refine ⟨fun selected hs hchanges => ?_, hn.bucket, hn.staged, hn.unread⟩
  have hs' : (n.row <|> some found) = some (some selected) := hs
  rcases hread : n.row with _ | old
  · rw [hread] at hs'
    have hcur : w.db.selectSubscription userId = some selected := hall.symm.trans (Option.some.inj hs')
    obtain ⟨hdb, -⟩ := Option.filter_eq_some_iff.1 hcur
    obtain rfl : row = selected := Option.some.inj (hrow.symm.trans hdb)
    rcases hc : w.carried with _ | _
    · exact ⟨(huntil hc).1, (huntil hc).2.1⟩
    · exact absurd (honce hc).1 hchanges
  · rw [hread] at hs'
    exact hn.row selected (hread.trans hs') hchanges

/-- The bucket that is read first is the one that stands, and what is read after it is staged. -/
theorem noted_selectCredit {key : String} {found : Option CreditRow} (hI : b.Stands userId tier w.carried w.db)
    (hn : b.Noted userId tier w.carried w.db n) (hkey : n.key = some key) (hall : found = w.db.credits userId key) :
    b.Noted userId tier w.carried w.db (n.step (.done (.selectCredit userId key) (.ok found))) := by
  obtain ⟨row, hrow, -, huntil, honce⟩ := hI
  subst hall
  have hread : ∀ {P : Prop}, n.key = none → P := by
    intro P hnone
    rw [hkey] at hnone
    cases hnone
  by_cases hbucket : n.bucket.isSome
  · have hstep : n.step (.done (.selectCredit userId key) (.ok (w.db.credits userId key))) =
        { n with staged := some (w.db.credits userId key) } := by
      simp only [UpgradeNotes.step, Event.done, hbucket, if_true]
    rw [hstep]
    refine ⟨hn.row, hn.bucket, fun _ hk staged hs => .inl ?_, hread⟩
    obtain rfl : key = b.periodKey := Option.some.inj (hkey.symm.trans hk)
    exact (Option.some.inj hs).symm
  · have hstep : n.step (.done (.selectCredit userId key) (.ok (w.db.credits userId key))) =
        { n with bucket := some (w.db.credits userId key) } := by
      simp only [UpgradeNotes.step, Event.done, hbucket]
      rfl
    rw [hstep]
    refine ⟨hn.row, fun hc hk bucket hb => ?_, hn.staged, hread⟩
    obtain rfl : key = b.periodKey := Option.some.inj (hkey.symm.trans hk)
    obtain rfl : w.db.credits userId b.periodKey = bucket := Option.some.inj hb
    exact (huntil hc).2.2

theorem noted_read {op : BillOp} {a : op.Ans} (hI : b.Stands userId tier w.carried w.db)
    (hn : b.Noted userId tier w.carried w.db n) (hpre : Asks userId tier n job op) (hcommit : ∀ tx, op ≠ .commit tx)
    (hall : w.db.AllowedAnswer op a) : b.Noted userId tier w.carried w.db (n.step (.done op (.ok a))) := by
  cases op with
  | commit tx => exact absurd rfl (hcommit tx)
  | selectSubscription u =>
    obtain rfl : u = userId := hpre
    exact noted_selectSubscription hI hn hall
  | utcNow =>
    rcases hkey : n.key with _ | key
    · -- before the clock is read no bucket is
      obtain ⟨hbucket, hstaged⟩ := hn.unread hkey
      refine ⟨hn.row, fun _ _ bucket hb => ?_, fun _ _ staged hs => ?_, fun _ => ⟨hbucket, hstaged⟩⟩
      · have hb' : n.bucket = some bucket := hb
        rw [hbucket] at hb'
        cases hb'
      · have hs' : n.staged = some staged := hs
        rw [hstaged] at hs'
        cases hs'
    · have hstep : n.step (.done .utcNow (.ok a)) = n := by
        rcases n with ⟨selected, key', bucket, staged, answer⟩
        subst hkey
        rfl
      rw [hstep]
      exact hn
  | selectCredit u key =>
    obtain ⟨rfl, hkey⟩ := hpre
    exact noted_selectCredit hI hn hkey hall
  | changeSubscriptionPlan _ _ _ _ _ => exact ⟨hn.row, hn.bucket, hn.staged, hn.unread⟩
  | _ => exact hn

theorem accepted_of_allowed {db : Database} {tx : Transaction} {out : Except PyError Unit} {h}
    (hall : db.Allowed ⟨.commit tx, out, true, h⟩) : db.violates tx = false ∧ db.stale tx = false := by
  rcases out with e | a
  · have herror : db.AllowedError (.commit tx) e true := hall
    exact herror.1 rfl
  · exact hall

/-- What a commit that takes effect leaves of the wallet, and of what the sessions have read. -/
theorem stands_commit {tx : Transaction} {out : Except PyError Unit} {h} (hI : b.Stands userId tier w.carried w.db)
    (hn : b.Noted userId tier w.carried w.db (w.notes i)) (hasks : Asks userId tier (w.notes i) job (.commit tx))
    (hall : w.db.Allowed ⟨.commit tx, out, true, h⟩) (hfrom : FromBefore b w i job ⟨.commit tx, out, true, h⟩) :
    b.Stands userId tier (w.carried || carries job ⟨.commit tx, out, true, h⟩) (w.db.commit tx) ∧
      ∀ n', b.Noted userId tier w.carried w.db n' →
        b.Noted userId tier (w.carried || carries job ⟨.commit tx, out, true, h⟩) (w.db.commit tx) n' := by
  obtain ⟨hv, hst⟩ := accepted_of_allowed hall
  cases job with
  | request =>
    obtain ⟨hplan, hkey, hend⟩ := hfrom
    have hcarries : (w.carried || carries .request ⟨.commit tx, out, true, h⟩) = true := Bool.or_true _
    rw [hcarries]
    exact ⟨stands_request hasks hst hn hplan hkey hend hI,
      fun n' hn' => noted_of_db hn' (fun hc => (by cases hc)) fun hc => (by cases hc)⟩
  | activation d =>
    have hcarries : (w.carried || carries (.activation d) ⟨.commit tx, out, true, h⟩) = w.carried := Bool.or_false _
    rw [hcarries]
    rcases hasks with htier | hbucket
    · refine ⟨stands_tier htier hv hst hI, fun n' hn' => noted_of_db hn' id fun _ => .inl ?_⟩
      rw [commit_no_credit htier.1]
    · have hsome : tx.credit.isSome := by
        obtain ⟨key, bucket, staged, grant, target, -, -, -, -, -, -, -, hcredit⟩ := hbucket
        rw [hcredit]
        rfl
      refine ⟨stands_bucket hbucket hst hn (fun hc hk => hfrom hc hsome hk) hI, fun n' hn' => ?_⟩
      refine noted_of_db hn' id fun hc => ?_
      obtain ⟨row, -, hstanding⟩ := hI
      have hraised := (hstanding.until_carried hc).2.2
      rcases raised_commit hbucket hst (hc ▸ hn) hraised with hkept | ⟨grant, hgrant, hnew⟩
      · exact .inl hkept.symm
      · rcases hraised with hcur | ⟨grant', hgrant', hcur⟩
        · exact .inr hcur
        · obtain rfl : grant = grant' := by
            rw [hgrant] at hgrant'
            exact Option.some.inj hgrant'
          exact .inl (hcur.trans hnew.symm)

/-- An exchange that commits nothing leaves the tables. -/
theorem apply_quiet {ev : Event BillSig} (h : ∀ tx, ev.op = .commit tx → ev.took = false) :
    (w.apply i job ev).db = w.db ∧ (w.apply i job ev).carried = w.carried := by
  obtain ⟨op, out, took, hout⟩ := ev
  cases op with
  | commit tx =>
    obtain rfl : took = false := h tx rfl
    cases job with
    | request => exact ⟨rfl, Bool.or_false _⟩
    | activation d => exact ⟨rfl, Bool.or_false _⟩
  | _ =>
    cases job with
    | request => exact ⟨rfl, Bool.or_false _⟩
    | activation d => exact ⟨rfl, Bool.or_false _⟩

theorem noted_step {ev : Event BillSig} (hI : b.Stands userId tier w.carried w.db)
    (hn : b.Noted userId tier w.carried w.db n) (hpre : Asks userId tier n job ev.op)
    (hquiet : ∀ tx, ev.op = .commit tx → ev.took = false) (hall : w.db.Allowed ev) :
    b.Noted userId tier w.carried w.db (n.step ev) := by
  obtain ⟨op, out, took, hout⟩ := ev
  rcases out with e | a
  · have hstep : n.step ⟨op, .error e, took, hout⟩ = n := by cases op <;> rfl
    rw [hstep]
    exact hn
  · obtain rfl : took = true := hout a rfl
    refine noted_read hI hn hpre (fun tx hop => ?_) hall
    subst hop
    cases hquiet tx rfl

/-- The wallet, what the session has read and what another one has, after an exchange. -/
theorem stands_apply {ev : Event BillSig} (hI : b.Stands userId tier w.carried w.db)
    (hn : b.Noted userId tier w.carried w.db (w.notes i)) (hpre : Asks userId tier (w.notes i) job ev.op)
    (hall : w.db.Allowed ev) (hfrom : FromBefore b w i job ev) :
    b.Stands userId tier (w.apply i job ev).carried (w.apply i job ev).db ∧
      b.Noted userId tier (w.apply i job ev).carried (w.apply i job ev).db ((w.notes i).step ev) ∧
      ∀ n', b.Noted userId tier w.carried w.db n' →
        b.Noted userId tier (w.apply i job ev).carried (w.apply i job ev).db n' := by
  by_cases hquiet : ∀ tx, ev.op = .commit tx → ev.took = false
  · obtain ⟨hdb, hcarried⟩ := @apply_quiet w i job _ hquiet
    rw [hdb, hcarried]
    exact ⟨hI, noted_step hI hn hpre hquiet hall, fun _ h => h⟩
  · push Not at hquiet
    obtain ⟨tx, hop, htook⟩ := hquiet
    obtain ⟨op, out, took, hout⟩ := ev
    dsimp only at hop
    subst hop
    obtain rfl : took = true := by simpa using htook
    obtain ⟨hstands, hkeeps⟩ := stands_commit hI hn hpre hall hfrom
    have hstep : (w.notes i).step ⟨.commit tx, out, true, hout⟩ = w.notes i := by rcases out with e | a <;> rfl
    rw [hstep]
    exact ⟨hstands, hkeeps _ hn, hkeeps⟩

/-- **One exchange**: what stands of the wallet goes on to stand, and of what each session has read. -/
theorem watched_upgrade (b : Before) : (upgradeSystem stripe cfg userId apiTier).Watched
    (upgradeMonitor userId (apiTierToDomain apiTier)) {}
    (fun w => b.Stands userId (apiTierToDomain apiTier) (UpgradeWorld.carried w) (UpgradeWorld.db w))
    (fun w i _ n => UpgradeWorld.notes w i = n ∧
      b.Noted userId (apiTierToDomain apiTier) (UpgradeWorld.carried w) (UpgradeWorld.db w) n)
    (ComputedBefore b) where
  start := by
    rintro w w' i job p hI ⟨hannounced, rfl, rfl⟩
    refine ⟨hI, ⟨⟨Function.update_self .., noted_start _ _⟩, asks_program fun d hd => (hannounced d hd).2⟩, ?_⟩
    rintro j job' n hji ⟨hnotes, hn⟩
    exact ⟨(Function.update_of_ne hji ..).trans hnotes, hn⟩
  act := by
    rintro c i job ev n hI ⟨rfl, hn⟩ hpre hall hfrom
    obtain ⟨hstands, hself, -⟩ := stands_apply hI hn hpre hall hfrom
    exact ⟨hstands, trivial, Function.update_self .., hself⟩
  other := by
    rintro c i job ev n hI ⟨rfl, hn⟩ hpre hall hfrom j job' n' q hji - ⟨rfl, hn'⟩
    exact ⟨Function.update_of_ne hji .., (stands_apply hI hn hpre hall hfrom).2.2 _ hn'⟩

theorem applied_iff_of_stands {carried : Bool} {db : Database} (hlive : b.live = b.row.carryoverCredits)
    (h : b.Stands userId tier carried db) :
    b.Applied userId tier db ↔ carried = true ∨ b.NothingToCarry userId tier db := by
  obtain ⟨row, hrow, hpurchased, huntil, honce⟩ := h
  constructor
  · rintro ⟨⟨row', hrow', hcredits, hexpiry, -⟩, hplan⟩
    obtain rfl : row = row' := Option.some.inj (hrow.symm.trans hrow')
    rcases hc : carried with _ | _
    · obtain ⟨hcarry, hexpires, -⟩ := huntil hc
      refine .inr ⟨by omega, ?_, hplan⟩
      rw [← hexpires, hexpiry]
    · exact .inl rfl
  · rintro (hc | ⟨hunspent, hexpiry, hplan⟩)
    · obtain ⟨-, hcredits, hexpires, hbucket⟩ := honce hc
      refine ⟨⟨row, hrow, ?_, hexpires, hpurchased⟩, ?_⟩
      · rw [hlive, hcredits]
      · unfold planBalance
        rw [hbucket]
        rfl
    · rcases hc : carried with _ | _
      · obtain ⟨hcarry, hexpires, -⟩ := huntil hc
        refine ⟨⟨row, hrow, ?_, ?_, hpurchased⟩, hplan⟩
        · rw [hlive, hcarry, hunspent, Int.add_zero]
        · rw [hexpires, hexpiry]
      · obtain ⟨-, hcredits, hexpires, -⟩ := honce hc
        refine ⟨⟨row, hrow, ?_, hexpires, hpurchased⟩, hplan⟩
        rw [hlive, hcredits]

end System

/-! ## Concrete runs -/

section Concrete

/-- A PRO user with 320 of 500 credits left. -/
def upgradingRow : SubscriptionRow := { userId := some 7, tier := .pro, stripeSubscriptionId := some "sub_1" }

def upgradingWallet : Before := ⟨upgradingRow, some ⟨500, 320⟩, "1970-01", some 100, 0⟩

def upgradingDatabase : Database where
  subscriptions := Function.update (fun _ => none) 7 (some upgradingRow)
  credits := Function.update (fun _ _ => none) 7 (Function.update (fun _ => none) "1970-01" (some ⟨500, 320⟩))
  transactions := []

def upgradeConfig : WebhookConfig := ⟨defaultStripe.prices, true⟩

/-- Stripe's webhook that the subscription is on the price of PRO_PLUS. -/
def proPlusAnnounced : Delivery :=
  { now := 0
    event := .subscriptionUpdated ⟨some "sub_1", some "active", some "cus_1", some 7, some "pro_plus",
      [some "price_pro_plus_monthly"]⟩ }

theorem announces_proPlus : Announces upgradeConfig 7 .proPlus proPlusAnnounced := ⟨rfl, by decide, rfl⟩

abbrev proPlusSystem : Sys BillSig := upgradeSystem defaultStripe upgradeConfig 7 .proPlus

/-- The tables and Stripe answer, within the period. -/
def upgradeDriver : proPlusSystem.Driver where
  reply w := (answering 0 (some ⟨some 100, none⟩)).reply (UpgradeWorld.db w)
  check w _ _ ev := decide ((UpgradeWorld.db w).Allowed ev)
  sound {w _ _ ev} h := @of_decide_eq_true ((UpgradeWorld.db w).Allowed ev) _ h

def requestStarter (i : ℕ) : proPlusSystem.Starter i where
  start w := some (.request, UpgradeJob.program defaultStripe upgradeConfig 7 .proPlus .request,
    { w with notes := Function.update (UpgradeWorld.notes w) i {} })
  sound h := by
    cases h
    exact ⟨fun d hd => (by cases hd), rfl, rfl⟩

def activationStarter (i : ℕ) : proPlusSystem.Starter i where
  start w := if UpgradeWorld.billed w then some (.activation proPlusAnnounced,
      UpgradeJob.program defaultStripe upgradeConfig 7 .proPlus (.activation proPlusAnnounced),
      { w with notes := Function.update (UpgradeWorld.notes w) i {} }) else none
  sound {w _ _ _} h := by
    by_cases hbilled : UpgradeWorld.billed w
    · rw [if_pos hbilled] at h
      cases h
      refine ⟨fun d hd => ?_, rfl, rfl⟩
      cases hd
      exact ⟨hbilled, announces_proPlus⟩
    · rw [if_neg hbilled] at h
      cases h

def idleUpgrade : proPlusSystem.Config := ⟨{ db := upgradingDatabase }, fun _ => none⟩

end Concrete

/-! ## An upgrade is applied once -/

section AppliedOnce

variable {stripe : StripeService} {cfg : WebhookConfig} {userId : ℤ} {apiTier : ApiTier} {b : Before}

/-- **An upgrade is applied once**: in every run of requests and activations whose commits are computed from the wallet
before, where the stored carryover has not expired, the upgrade is applied as soon as the writes of one request took effect
and for as long as the run goes on, and before that only where there is nothing to carry over. -/
theorem upgrade_applied_once {c : (upgradeSystem stripe cfg userId apiTier).Config}
    {tr : List ((upgradeSystem stripe cfg userId apiTier).Label × (upgradeSystem stripe cfg userId apiTier).Config)}
    (hidle : ∀ i, c.threads i = none) (hcarried : UpgradeWorld.carried c.world = false)
    (hb : b.Describes userId (UpgradeWorld.db c.world)) (hlive : b.live = b.row.carryoverCredits)
    (hs : (upgradeSystem stripe cfg userId apiTier).Steps c tr)
    (hcomputed : Along (ActOnly (ComputedBefore b)) c tr) :
    Along (fun _ _ c' => b.Applied userId (apiTierToDomain apiTier) (UpgradeWorld.db c'.world) ↔
      UpgradeWorld.carried c'.world = true ∨
        b.NothingToCarry userId (apiTierToDomain apiTier) (UpgradeWorld.db c'.world)) c tr := by
  have hstands : b.Stands userId (apiTierToDomain apiTier) (UpgradeWorld.carried c.world) (UpgradeWorld.db c.world) := by
    refine ⟨b.row, hb.row, rfl, fun _ => ⟨rfl, rfl, .inl hb.bucket⟩, fun hc => ?_⟩
    rw [hcarried] at hc
    cases hc
  have hkept := preserved_of_watched (@watched_upgrade stripe cfg userId apiTier b)
  refine along_of_preserved hkept (fun c l c' hI hst hl => ?_) (watched_start hidle hstands) hs hcomputed
  exact applied_iff_of_stands hlive (inv_step hkept hI hst hl).1

/-- A request, and the activation that Stripe sends then. -/
def upgradeThenActivation : List (proPlusSystem.Label × proPlusSystem.Config) :=
  Sys.drive upgradeDriver idleUpgrade
    [.start 0 (requestStarter 0), .go 0, .go 0, .go 0, .go 0, .go 0, .go 0, .go 0, .go 0, .go 0, .exit 0,
      .start 1 (activationStarter 1), .go 1, .go 1, .go 1, .go 1, .exit 1]

theorem upgrade_applied_once_then_activated :
    Along (fun _ _ c' => upgradingWallet.Applied 7 .proPlus (UpgradeWorld.db c'.world) ↔
      UpgradeWorld.carried c'.world = true ∨ upgradingWallet.NothingToCarry 7 .proPlus (UpgradeWorld.db c'.world))
      idleUpgrade upgradeThenActivation :=
  upgrade_applied_once (fun _ => rfl) rfl ⟨rfl, rfl⟩ rfl (steps_drive _ _ _)
    (@of_decide_eq_true _ (@decidableAlong _ _ _ (@decidableActOnly _ _ _ (decidableComputedBefore _)) _ _)
      (by decide +kernel))

/-- The writes of a request fail; the activation sets the tier, and the retry is told that the plan is there. -/
def upgradeNotCarried : List (proPlusSystem.Label × proPlusSystem.Config) :=
  Sys.drive upgradeDriver idleUpgrade
    [.start 0 (requestStarter 0), .go 0, .go 0, .go 0, .go 0, .go 0, .go 0, .go 0, .go 0,
      .fail 0 ⟨.other, "connection lost"⟩ false, .exit 0,
      .start 1 (activationStarter 1), .go 1, .go 1, .go 1, .go 1, .go 1, .go 1, .exit 1,
      .start 2 (requestStarter 2), .go 2, .exit 2]

/-- The unspent credits are not carried over, and the bucket is not at the new grant. -/
theorem upgrade_not_applied : ¬ ∀ (stripe : StripeService) (cfg : WebhookConfig) (userId : ℤ) (apiTier : ApiTier)
    (b : Before) (c : (upgradeSystem stripe cfg userId apiTier).Config)
    (tr : List ((upgradeSystem stripe cfg userId apiTier).Label × (upgradeSystem stripe cfg userId apiTier).Config)),
    (∀ i, c.threads i = none) → UpgradeWorld.carried c.world = false → UpgradeWorld.billed c.world = false →
    b.Describes userId (UpgradeWorld.db c.world) → tierRank b.row.tier < tierRank (apiTierToDomain apiTier) →
    (upgradeSystem stripe cfg userId apiTier).Steps c tr → Along (ActOnly (WithinPeriod b)) c tr →
    (∀ i, (lastConfig c tr).threads i = none) → UpgradeWorld.billed (lastConfig c tr).world = true →
    b.Applied userId (apiTierToDomain apiTier) (UpgradeWorld.db (lastConfig c tr).world) := by
  intro h
  have happlied := h defaultStripe upgradeConfig 7 .proPlus upgradingWallet idleUpgrade upgradeNotCarried (fun _ => rfl) rfl
    rfl ⟨rfl, rfl⟩ (by decide) (steps_drive _ _ _)
    (@of_decide_eq_true _ (@decidableAlong _ _ _ (@decidableActOnly _ _ _ (decidableWithinPeriod _)) _ _)
      (by decide +kernel))
    (fun i => by rcases i with _ | _ | _ | i <;> rfl) (by decide +kernel)
  have hplan : planBalance 7 "1970-01" (UpgradeWorld.db (lastConfig idleUpgrade upgradeNotCarried).world) = 1820 := by
    decide +kernel
  have hgrant := happlied.plan
  have hexpected : planBalance 7 "1970-01" (UpgradeWorld.db (lastConfig idleUpgrade upgradeNotCarried).world) = 2000 :=
    hgrant
  rw [hplan] at hexpected
  cases hexpected

end AppliedOnce

end Transform.Billing
