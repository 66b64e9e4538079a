import Transform.Billing.Sequential

/-!
# Billing.Activation — repeated and reordered activations

Activations of one user within one period, handled one after the other.  `activations_settle`: the bucket they leave
depends only on which activations there were, whatever their order and however often each is delivered.
-/

namespace Transform.Billing

open Lib Conversions

/-! ## Deliveries -/

section Deliveries

/-- An activation as the webhook handles it, with the instant at which it does. -/
structure Activation where
  now : Instant
  tierName : Option String
  stripeCustomerId : Option String
  stripeSubscriptionId : Option String
  priceId : Option String
  deriving DecidableEq, Repr

variable (prices : StripePrices) (userId : ℤ)

def Activation.grant (e : Activation) : Option ℕ :=
  match resolveActivationTier prices e.tierName e.priceId with
  | .ok tier => (TierPolicy.forTier tier).monthlyConversionCredits
  | .error _ => none

/-- The tables after an activation. -/
def activate (db : Database) (e : Activation) : Database :=
  ((activateSubscription prices userId e.tierName e.stripeCustomerId e.stripeSubscriptionId e.priceId).run.exec
    (answering e.now none) db).2

/-- The tables after a sequence of activations. -/
def activateAll (db : Database) (events : List Activation) : Database := events.foldl (activate prices userId) db

def walletColumns (db : Database) : ℤ × Option Instant × ℤ :=
  (db.subscriptions userId).elim (0, none, 0) fun row =>
    (row.carryoverCredits, row.carryoverExpiresAt, row.purchasedCredits)

end Deliveries

/-! ## The delta rule -/

section Delta

/-- What one activation makes of a bucket. -/
def raisedBy (bucket : Option CreditRow) (grant : ℕ) : Option CreditRow :=
  match bucket with
  | none => some ⟨grant, grant⟩
  | some row =>
    if 0 < grant - row.allowance then some ⟨grant, min (row.remaining + (grant - row.allowance)) grant⟩
    else some row

/-- A bucket at the larger of its allowance and a grant, with as much spent as before. -/
def CreditRow.atLeast (row : CreditRow) (grant : ℤ) : CreditRow :=
  ⟨max row.allowance grant, max row.allowance grant - (row.allowance - row.remaining)⟩

theorem atLeast_valid {row : CreditRow} (h : row.Valid) (grant : ℤ) : (row.atLeast grant).Valid := by
  obtain ⟨h0, hle⟩ := h
  constructor <;> simp only [CreditRow.atLeast] <;> omega

theorem atLeast_atLeast (row : CreditRow) (m n : ℤ) : (row.atLeast m).atLeast n = row.atLeast (max m n) := by
  simp only [CreditRow.atLeast, CreditRow.mk.injEq]
  omega

/-- The clamp never bites: the delta rule moves the allowance and keeps what is spent. -/
theorem raisedBy_some {row : CreditRow} (h : row.Valid) (grant : ℕ) :
    raisedBy (some row) grant = some (row.atLeast grant) := by
  obtain ⟨h0, hle⟩ := h
  obtain ⟨allowance, remaining⟩ := row
  simp only [raisedBy, CreditRow.atLeast] at *
  split_ifs with hlt
  · simp only [Option.some.injEq, CreditRow.mk.injEq]
    omega
  · simp only [Option.some.injEq, CreditRow.mk.injEq]
    omega

end Delta

/-! ## One activation -/

section Step

variable {prices : StripePrices} {userId : ℤ} {db : Database} {e : Activation}

theorem session_openBucket {now : Instant} {periodKey : String} {tier : SubscriptionTier} {grant : ℕ}
    (htier : (TierPolicy.forTier tier).monthlyConversionCredits = some grant) {Q : Unit → Database → Prop}
    {E : PyError → Database → Prop} (h : Q () (db.setCredit userId periodKey ⟨grant, grant⟩)) :
    wpe (session now none) (openBucket userId periodKey tier) Q E db := by
  unfold openBucket
  rw [wpe_bind]
  refine wpe_ofExcept (fun credit hc => ?_) fun err he => ?_
  · obtain ⟨n, hn, ha, hr⟩ := fromTier_ok hc
    obtain rfl : n = grant := by
      rw [htier] at hn
      exact (Option.some.inj hn).symm
    rw [ha, hr]
    exact session_saveCredit h
  · unfold Credit.fromTier at he
    rw [htier] at he
    cases he

/-- The bucket moves by the delta rule; the rest of the tables stands. -/
theorem session_grantPlan {now : Instant} {tier : SubscriptionTier} {grant : ℕ}
    (htier : (TierPolicy.forTier tier).monthlyConversionCredits = some grant)
    (hvalid : ∀ row, db.credits userId (currentPeriodKey now) = some row → row.Valid) :
    wpe (session now none) (grantPlan userId tier grant)
      (fun _ db' => db'.subscriptions = db.subscriptions ∧ db'.credits userId (currentPeriodKey now) =
        raisedBy (db.credits userId (currentPeriodKey now)) grant) (fun _ _ => False) db := by
  unfold grantPlan
  rw [wpe_bind]
  refine session_read rfl rfl ?_
  rw [wpe_bind]
  refine session_getCredit (fun hnone => ?_) (fun row credit hrow hc => ?_) fun row err hrow he => ?_
  · refine session_openBucket htier ⟨rfl, ?_⟩
    rw [hnone]
    simp [Database.setCredit, raisedBy]
  · obtain ⟨ha, hr⟩ := credit_of_ok hc
    show wpe _ (raiseBucket userId (currentPeriodKey now) grant credit) _ _ _
    unfold raiseBucket
    rw [ha, hr]
    dsimp only
    split_ifs with hlt
    · refine session_saveCredit ⟨rfl, ?_⟩
      rw [hrow]
      simp only [Database.setCredit, raisedBy, Function.update_self, if_pos hlt]
    · refine ⟨rfl, ?_⟩
      rw [hrow]
      simp only [raisedBy, if_neg hlt]
  · obtain ⟨credit, hc, -⟩ := credit_of_valid (hvalid row hrow)
    rw [hc] at he
    cases he

theorem walletColumns_upserted (db : Database) (tier : SubscriptionTier) (customer subscription : Option String) :
    walletColumns userId (db.setSubscription userId (upserted db userId tier customer subscription)) =
      walletColumns userId db := by
  unfold walletColumns upserted
  rcases hrow : db.subscriptions userId with _ | row <;>
    simp [Database.setSubscription, SubscriptionRow.fresh, SubscriptionRow.assign]

/-- **One activation** raises the bucket by the delta rule and leaves the wallet alone. -/
theorem activate_spec {grant : ℕ} (hgrant : e.grant prices = some grant)
    (hvalid : ∀ row, db.credits userId (currentPeriodKey e.now) = some row → row.Valid) :
    walletColumns userId (activate prices userId db e) = walletColumns userId db ∧
      (activate prices userId db e).credits userId (currentPeriodKey e.now) =
        raisedBy (db.credits userId (currentPeriodKey e.now)) grant := by
  have hwp : wpe (session e.now none) (activateSubscription prices userId e.tierName e.stripeCustomerId
      e.stripeSubscriptionId e.priceId)
      (fun _ db' => walletColumns userId db' = walletColumns userId db ∧ db'.credits userId (currentPeriodKey e.now) =
        raisedBy (db.credits userId (currentPeriodKey e.now)) grant) (fun _ _ => False) db := by
    unfold Activation.grant at hgrant
    unfold activateSubscription
    rcases htier : resolveActivationTier prices e.tierName e.priceId with err | tier
    · rw [htier] at hgrant
      cases hgrant
    · rw [htier] at hgrant
      replace hgrant : (TierPolicy.forTier tier).monthlyConversionCredits = some grant := hgrant
      rw [wpe_bind, wpe_ofExcept_ok, wpe_bind]
      refine session_upsert ?_
      rw [hgrant]
      have hpos := monthlyConversionCredits_pos hgrant
      obtain ⟨n, rfl⟩ : ∃ n, grant = n + 1 := ⟨grant - 1, by omega⟩
      refine wpe_mono (session_grantPlan hgrant hvalid) (fun _ db' h => ⟨?_, h.2⟩) fun _ _ h => h
      rw [← walletColumns_upserted db tier e.stripeCustomerId e.stripeSubscriptionId]
      unfold walletColumns
      rw [h.1]
  exact exec_of_wpe (wpe_mono hwp (fun _ _ h => h) fun _ _ h => h.elim)

end Step

/-! ## Sequences of activations -/

section Sequences

variable {prices : StripePrices} {userId : ℤ} {periodKey : String}

/-- The largest of some grants. -/
def topGrant (grants : List ℕ) : ℕ := grants.foldr max 0

/-- The bucket after activations with the given grants. -/
def settledBucket (bucket : Option CreditRow) (grants : List ℕ) : Option CreditRow :=
  match bucket with
  | some row => some (row.atLeast (topGrant grants))
  | none => if grants = [] then none else some ⟨topGrant grants, topGrant grants⟩

theorem foldl_raisedBy_some : ∀ (grants : List ℕ) {row : CreditRow}, row.Valid →
    grants.foldl raisedBy (some row) = some (row.atLeast (topGrant grants))
  | [], row, h => by
    obtain ⟨h0, hle⟩ := h
    obtain ⟨allowance, remaining⟩ := row
    simp only [List.foldl_nil, topGrant, List.foldr_nil, CreditRow.atLeast, Option.some.injEq, CreditRow.mk.injEq]
    simp only at h0 hle
    omega
  | grant :: grants, row, h => by
    have ih := foldl_raisedBy_some grants (atLeast_valid h grant)
    rw [List.foldl_cons, raisedBy_some h, ih, atLeast_atLeast]
    have hmax : max (grant : ℤ) (topGrant grants) = (topGrant (grant :: grants) : ℕ) := by
      simp only [topGrant, List.foldr_cons]
      omega
    rw [hmax]

/-- **The delta rule** over a sequence: the allowance is the largest grant or the initial allowance, and what was
spent stays spent. -/
theorem foldl_raisedBy {bucket : Option CreditRow} (h : ∀ row, bucket = some row → row.Valid) (grants : List ℕ) :
    grants.foldl raisedBy bucket = settledBucket bucket grants := by
  rcases bucket with _ | row
  · rcases grants with _ | ⟨grant, grants⟩
    · rfl
    · have hvalid : CreditRow.Valid ⟨grant, grant⟩ := ⟨Int.natCast_nonneg grant, Int.le_refl _⟩
      have hfold := foldl_raisedBy_some grants hvalid
      rw [List.foldl_cons]
      refine hfold.trans ?_
      simp only [settledBucket, CreditRow.atLeast, topGrant, List.foldr_cons, reduceCtorEq, if_false,
        Option.some.injEq, CreditRow.mk.injEq]
      omega
  · exact foldl_raisedBy_some grants (h row rfl)

theorem le_topGrant {n : ℕ} : ∀ {grants : List ℕ}, n ∈ grants → n ≤ topGrant grants
  | grant :: grants, h => by
    rcases List.mem_cons.1 h with rfl | h
    · exact le_max_left _ _
    · exact (le_topGrant h).trans (le_max_right _ _)

theorem topGrant_mem : ∀ {grants : List ℕ}, grants ≠ [] → topGrant grants ∈ grants
  | [grant], _ => by simp [topGrant]
  | grant :: grant' :: grants, _ => by
    have ih := topGrant_mem (List.cons_ne_nil grant' grants)
    by_cases h : topGrant (grant' :: grants) ≤ grant
    · rw [show topGrant (grant :: grant' :: grants) = grant from max_eq_left h]
      exact List.mem_cons_self ..
    · rw [show topGrant (grant :: grant' :: grants) = topGrant (grant' :: grants) from max_eq_right (le_of_not_ge h)]
      exact List.mem_cons_of_mem _ ih

theorem topGrant_congr {grants grants' : List ℕ} (h : ∀ n, n ∈ grants ↔ n ∈ grants') :
    topGrant grants = topGrant grants' := by
  have hle : ∀ {l l' : List ℕ}, (∀ n, n ∈ l → n ∈ l') → topGrant l ≤ topGrant l' := by
    intro l l' hsub
    by_cases hl : l = []
    · rw [hl]
      exact Nat.zero_le _
    · exact le_topGrant (hsub _ (topGrant_mem hl))
  exact le_antisymm (hle fun n hn => (h n).1 hn) (hle fun n hn => (h n).2 hn)

theorem settledBucket_congr {bucket : Option CreditRow} {grants grants' : List ℕ} (h : ∀ n, n ∈ grants ↔ n ∈ grants') :
    settledBucket bucket grants = settledBucket bucket grants' := by
  have hnil : grants = [] ↔ grants' = [] := by
    simp only [List.eq_nil_iff_forall_not_mem, h]
  unfold settledBucket
  rw [topGrant_congr h]
  simp only [hnil]

/-- The activations of one period, each of a tier with a finite grant. -/
def InOnePeriod (prices : StripePrices) (periodKey : String) (events : List Activation) : Prop :=
  ∀ e ∈ events, currentPeriodKey e.now = periodKey ∧ (e.grant prices).isSome

theorem activateAll_bucket : ∀ (events : List Activation) {db : Database}, InOnePeriod prices periodKey events →
    (∀ row, db.credits userId periodKey = some row → row.Valid) →
    walletColumns userId (activateAll prices userId db events) = walletColumns userId db ∧
      (activateAll prices userId db events).credits userId periodKey =
        (events.filterMap (·.grant prices)).foldl raisedBy (db.credits userId periodKey)
  | [], _, _, _ => ⟨rfl, rfl⟩
  | e :: events, db, hin, hvalid => by
    obtain ⟨hperiod, hg⟩ := hin e (List.mem_cons_self ..)
    obtain ⟨grant, hgrant⟩ := Option.isSome_iff_exists.1 hg
    obtain ⟨hwallet, hbucket⟩ := activate_spec hgrant (by rw [hperiod]; exact hvalid)
    rw [hperiod] at hbucket
    have hvalid' : ∀ row, (activate prices userId db e).credits userId periodKey = some row → row.Valid := by
      intro row hrow
      rw [hbucket] at hrow
      rcases hold : db.credits userId periodKey with _ | old
      · rw [hold] at hrow
        cases hrow
        exact ⟨Int.natCast_nonneg grant, Int.le_refl _⟩
      · rw [hold, raisedBy_some (hvalid old hold)] at hrow
        cases hrow
        exact atLeast_valid (hvalid old hold) grant
    obtain ⟨hwallet', hbucket'⟩ := activateAll_bucket events
      (fun e' he' => hin e' (List.mem_cons_of_mem _ he')) hvalid'
    refine ⟨hwallet'.trans hwallet, ?_⟩
    rw [List.filterMap_cons_some hgrant, List.foldl_cons, ← hbucket]
    exact hbucket'

/-- What is spent of a bucket; nothing where there is none. -/
def spentCredits (bucket : Option CreditRow) : ℤ := bucket.elim 0 fun row => row.allowance - row.remaining

theorem settledBucket_valid {bucket : Option CreditRow} (h : ∀ row, bucket = some row → row.Valid) (grants : List ℕ) :
    (∀ row, settledBucket bucket grants = some row → row.Valid) ∧
      spentCredits (settledBucket bucket grants) = spentCredits bucket := by
  rcases bucket with _ | row
  · by_cases hg : grants = []
    · simp [settledBucket, hg, spentCredits]
    · refine ⟨fun row hrow => ?_, ?_⟩
      · simp only [settledBucket, hg, if_false, Option.some.injEq] at hrow
        subst hrow
        exact ⟨Int.natCast_nonneg _, Int.le_refl _⟩
      · simp [settledBucket, hg, spentCredits]
  · refine ⟨fun row' hrow => ?_, ?_⟩
    · cases hrow
      exact atLeast_valid (h row rfl) _
    · simp only [settledBucket, spentCredits, Option.elim_some, CreditRow.atLeast]
      omega

/-- **Activations settle**: in any order and with any repetitions, activations of one period leave the bucket at the
largest of its allowance and their grants with what was spent unchanged; it is valid throughout, depends only on the
set of grants, and the wallet is not touched. -/
theorem activations_settle {db : Database} {events : List Activation} (hin : InOnePeriod prices periodKey events)
    (hvalid : ∀ row, db.credits userId periodKey = some row → row.Valid) :
    (activateAll prices userId db events).credits userId periodKey =
        settledBucket (db.credits userId periodKey) (events.filterMap (·.grant prices)) ∧
      (∀ events', InOnePeriod prices periodKey events' →
        (∀ n, n ∈ events'.filterMap (·.grant prices) ↔ n ∈ events.filterMap (·.grant prices)) →
        (activateAll prices userId db events').credits userId periodKey =
          (activateAll prices userId db events).credits userId periodKey) ∧
      ∀ k, (∀ row, (activateAll prices userId db (events.take k)).credits userId periodKey = some row → row.Valid) ∧
        spentCredits ((activateAll prices userId db (events.take k)).credits userId periodKey) =
          spentCredits (db.credits userId periodKey) ∧
        walletColumns userId (activateAll prices userId db (events.take k)) = walletColumns userId db := by
  have hbucket : ∀ {events' : List Activation}, InOnePeriod prices periodKey events' →
      walletColumns userId (activateAll prices userId db events') = walletColumns userId db ∧
        (activateAll prices userId db events').credits userId periodKey =
          settledBucket (db.credits userId periodKey) (events'.filterMap (·.grant prices)) := by
    intro events' hin'
    obtain ⟨hwallet, hfold⟩ := activateAll_bucket events' hin' hvalid
    exact ⟨hwallet, hfold.trans (foldl_raisedBy hvalid _)⟩
  refine ⟨(hbucket hin).2, fun events' hin' hset => ?_, fun k => ?_⟩
  · rw [(hbucket hin').2, (hbucket hin).2]
    exact settledBucket_congr hset
  · have hprefix : InOnePeriod prices periodKey (events.take k) := fun e he => hin e (List.mem_of_mem_take he)
    obtain ⟨hwallet, htake⟩ := hbucket hprefix
    rw [htake]
    exact ⟨(settledBucket_valid hvalid _).1, (settledBucket_valid hvalid _).2, hwallet⟩

/-- A PRO checkout, its PRO_PLUS successor, and the first one delivered again. -/
def redelivered : List Activation :=
  [⟨0, none, some "cus_1", some "sub_1", some "pro"⟩, ⟨0, none, some "cus_1", some "sub_1", some "pro_plus"⟩,
    ⟨0, none, some "cus_1", some "sub_1", some "pro"⟩]

/-- A PRO bucket of which 100 credits are spent. -/
def partlySpent : Database where
  subscriptions := fun _ => none
  credits := Function.update (fun _ _ => none) 7 (Function.update (fun _ => none) (currentPeriodKey 0) (some ⟨500, 400⟩))
  transactions := []

theorem activations_settle_redelivered :
    (activateAll ⟨"pro", "pro_plus", "enterprise"⟩ 7 partlySpent redelivered).credits 7 (currentPeriodKey 0) =
      some ⟨2000, 1900⟩ := by
  have hin : InOnePeriod ⟨"pro", "pro_plus", "enterprise"⟩ (currentPeriodKey 0) redelivered := by
    intro e he
    simp only [redelivered, List.mem_cons, List.not_mem_nil, or_false] at he
    rcases he with rfl | rfl | rfl <;> exact ⟨rfl, rfl⟩
  have hbucket : partlySpent.credits 7 (currentPeriodKey 0) = some ⟨500, 400⟩ := by simp [partlySpent]
  have hvalid : ∀ row, partlySpent.credits 7 (currentPeriodKey 0) = some row → row.Valid := by
    intro row hrow
    rw [hbucket] at hrow
    cases hrow
    exact ⟨by decide, by decide⟩
  rw [(activations_settle hin hvalid).1, hbucket]
  rfl

end Sequences

end Transform.Billing
