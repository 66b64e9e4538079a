import Mathlib.Data.Nat.Notation
import Mathlib.Tactic.Common

/-!
# Billing.Tier — subscription tiers and their policies
-/

namespace Transform.Billing

inductive SubscriptionTier
  | guest
  | free
  | premium
  | pro
  | proPlus
  | enterprise
  deriving DecidableEq, Repr

def mb : ℕ := 1024 * 1024

def gb : ℕ := 1024 * mb

/-- Quota and monthly credits of one tier; `none` where the tier has no persistent credits. -/
structure TierPolicy where
  tier : SubscriptionTier
  storageQuotaBytes : ℕ
  monthlyConversionCredits : Option ℕ
  monthlyApiConversionCredits : Option ℕ
  deriving DecidableEq, Repr

def TierPolicy.forTier : SubscriptionTier → TierPolicy
  | .guest => ⟨.guest, 50 * mb, none, none⟩
  | .free => ⟨.free, 5 * gb, some 50, some 10⟩
  | .premium => ⟨.premium, 50 * gb, some 500, some 100⟩
  | .pro => ⟨.pro, 50 * gb, some 500, some 100⟩
  | .proPlus => ⟨.proPlus, 100 * gb, some 2000, some 1000⟩
  | .enterprise => ⟨.enterprise, 1000 * gb, none, none⟩

/-- A finite monthly grant is never zero, so the handler that skips a falsy grant skips only the tiers
without one. -/
theorem monthlyConversionCredits_pos {t : SubscriptionTier} {n : ℕ}
    (h : (TierPolicy.forTier t).monthlyConversionCredits = some n) : 0 < n := by
  cases t <;> simp [TierPolicy.forTier] at h <;> omega

end Transform.Billing
