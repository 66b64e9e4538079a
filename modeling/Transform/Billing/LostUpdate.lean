import Transform.Lib.Interleave
import Transform.Billing.WalletJob

/-!
# Billing.LostUpdate — concurrent writers of one wallet

Any number of consumptions, credit purchases and changes of plan for one user and one credit period, interleaved read
by read and commit by commit.  `total_conserved` gives the condition under which no update is lost: each column that a
commit writes still holds what the session read.
-/

namespace Transform.Billing

open Lib Conversions

/-! ## The total -/

section Total

variable (userId : ℤ) (periodKey : String) (horizon : Instant) (db : Database)

/-- What is left of the plan: the bucket's balance, or the grant of the tier where there is no bucket. -/
def planBalance : ℤ :=
  match db.credits userId periodKey with
  | some row => row.remaining
  | none => monthlyGrant ((db.subscriptions userId).elim .free (·.tier))

def carryoverAt : ℤ :=
  (db.subscriptions userId).elim 0 fun row => liveCarryover row.carryoverCredits row.carryoverExpiresAt horizon

/-- Plan, live carryover and purchased credits. -/
def walletTotal : ℤ := planBalance userId periodKey db + carryoverAt userId horizon db + purchasedBalance userId db

end Total

/-! ## When a commit loses nothing -/

section UpToDate

/-- A column that an UPDATE writes still holds what was read; one that it leaves alone was not to change. -/
def Intact (read old new current : ℤ) : Prop := if new = old then new = read else current = read

instance (read old new current : ℤ) : Decidable (Intact read old new current) := by
  unfold Intact
  infer_instance

theorem flushed_eq_iff {read old new current : ℤ} :
    flushed old new current = current + (new - read) ↔ Intact read old new current := by
  unfold flushed Intact
  split_ifs <;> omega

/-- A row that a commit updates: as the session loaded it, as it leaves it, and as it stands. -/
def Updates (db : Database) (tx : Transaction) (old new current : SubscriptionRow) : Prop :=
  ∃ userId, tx.subscription = some (userId, .update old new) ∧ db.subscriptions userId = some current

/-- The pair of carryover and expiry: it is left alone; or the carryover is intact, and what is stored is live both
before the commit and after it. -/
def CarryoverIntact (horizon : Instant) (old new current : SubscriptionRow) : Prop :=
  (new.carryoverCredits = old.carryoverCredits ∧ new.carryoverExpiresAt = old.carryoverExpiresAt) ∨
    (Intact old.carryoverCredits old.carryoverCredits new.carryoverCredits current.carryoverCredits ∧
      liveCarryover current.carryoverCredits current.carryoverExpiresAt horizon = current.carryoverCredits ∧
      liveCarryover (old.flush new current).carryoverCredits (old.flush new current).carryoverExpiresAt horizon =
        (old.flush new current).carryoverCredits)

/-- The plan balance that a commit writes is computed from the one that stands. -/
def PlanIntact (userId : ℤ) (periodKey : String) (db : Database) (s : Seen) : RowWrite CreditRow → Prop
  | .insert _ => planBalance userId periodKey db = s.plan
  | .update old new => Intact s.plan old.remaining new.remaining (planBalance userId periodKey db)

/-- No column that the commit writes has changed since it was read; the tier is set only with the bucket. -/
structure UpToDate (userId : ℤ) (periodKey : String) (horizon : Instant) (db : Database) (s : Seen)
    (tx : Transaction) : Prop where
  plan : ∀ {ownerId period write}, tx.credit = some (ownerId, period, write) →
    PlanIntact userId periodKey db s write
  purchased : ∀ {old new current}, Updates db tx old new current →
    Intact old.purchasedCredits old.purchasedCredits new.purchasedCredits current.purchasedCredits
  carryover : ∀ {old new current}, Updates db tx old new current → CarryoverIntact horizon old new current
  tier : ∀ {old new current}, Updates db tx old new current → new.tier = old.tier ∨ tx.credit.isSome

theorem upToDate_of_loaded {userId ownerId : ℤ} {periodKey : String} {horizon : Instant} {db : Database} {s : Seen}
    {tx : Transaction} {old new current : SubscriptionRow}
    (hplan : ∀ {ownerId period write}, tx.credit = some (ownerId, period, write) → PlanIntact userId periodKey db s write)
    (hsub : tx.subscription = some (ownerId, .update old new)) (hrow : db.subscriptions ownerId = some current)
    (hpurchased : Intact old.purchasedCredits old.purchasedCredits new.purchasedCredits current.purchasedCredits)
    (hcarryover : CarryoverIntact horizon old new current) (htier : new.tier = old.tier) :
    UpToDate userId periodKey horizon db s tx := by
  have heq : ∀ {old' new' current'}, Updates db tx old' new' current' →
      old' = old ∧ new' = new ∧ current' = current := by
    rintro old' new' current' ⟨u, hu, hc⟩
    rw [hsub] at hu
    obtain ⟨rfl, rfl, rfl⟩ : ownerId = u ∧ old = old' ∧ new = new' := by simpa using hu
    exact ⟨rfl, rfl, Option.some.inj (hc.symm.trans hrow)⟩
  refine ⟨hplan, fun h => ?_, fun h => ?_, fun h => ?_⟩ <;> obtain ⟨rfl, rfl, rfl⟩ := heq h
  · exact hpurchased
  · exact hcarryover
  · exact .inl htier

end UpToDate

/-! ## What a commit does to each pool -/

section Pools

variable {userId : ℤ} {periodKey : String} {horizon : Instant} {db : Database} {tx : Transaction} {s : Seen}

theorem commit_update {old new : SubscriptionRow} (htx : tx.subscription = some (userId, .update old new))
    (hst : db.stale tx = false) : ∃ current, Updates db tx old new current ∧
      db.subscriptions userId = some current ∧ (db.commit tx).subscriptions userId = some (old.flush new current) := by
  obtain ⟨current, hc, hc'⟩ := subscriptions_commit_update htx hst
  exact ⟨current, ⟨userId, htx, hc⟩, hc, hc'⟩

theorem commit_credit {write : RowWrite CreditRow} (htx : tx.credit = some (userId, periodKey, write)) :
    (db.commit tx).credits userId periodKey = write.apply CreditRow.flush (db.credits userId periodKey) := by
  simp [Database.commit, htx]

theorem commit_no_credit (htx : tx.credit = none) : (db.commit tx).credits = db.credits := by
  simp [Database.commit, htx]

theorem planBalance_commit {write : RowWrite CreditRow} (htx : tx.credit = some (userId, periodKey, write))
    (hst : db.stale tx = false) (h : PlanIntact userId periodKey db s write) :
    planBalance userId periodKey (db.commit tx) =
      planBalance userId periodKey db + (write.target.remaining - s.plan) := by
  have hnew : planBalance userId periodKey (db.commit tx) =
      ((write.apply CreditRow.flush (db.credits userId periodKey)).elim
        (monthlyGrant (((db.commit tx).subscriptions userId).elim .free (·.tier))) (·.remaining)) := by
    unfold planBalance
    rw [commit_credit htx]
    cases write.apply CreditRow.flush (db.credits userId periodKey) <;> rfl
  rw [hnew]
  rcases write with row | ⟨old, new⟩
  · have h' : planBalance userId periodKey db = s.plan := h
    show row.remaining = _
    show row.remaining = planBalance userId periodKey db + (row.remaining - s.plan)
    omega
  · obtain ⟨current, hc⟩ : ∃ current, db.credits userId periodKey = some current := by
      rw [← Option.isSome_iff_exists]
      simp only [Database.stale, htx, Option.any_some, Bool.or_eq_false_iff, RowWrite.stale] at hst
      simpa using hst.2
    have hcur : planBalance userId periodKey db = current.remaining := by
      unfold planBalance
      rw [hc]
    rw [hc, hcur]
    have h' : Intact s.plan old.remaining new.remaining current.remaining := hcur ▸ h
    exact flushed_eq_iff.2 h'

theorem planBalance_commit_none (htx : tx.credit = none)
    (htier : ((db.commit tx).subscriptions userId).elim .free (·.tier) = (db.subscriptions userId).elim .free (·.tier)) :
    planBalance userId periodKey (db.commit tx) = planBalance userId periodKey db := by
  unfold planBalance
  rw [commit_no_credit htx, htier]

theorem wallet_commit {old new : SubscriptionRow} (htx : tx.subscription = some (userId, .update old new))
    (hst : db.stale tx = false) (h : UpToDate userId periodKey horizon db s tx) :
    carryoverAt userId horizon (db.commit tx) + purchasedBalance userId (db.commit tx) =
      carryoverAt userId horizon db + purchasedBalance userId db +
        (new.carryoverCredits - old.carryoverCredits) + (new.purchasedCredits - old.purchasedCredits) := by
  obtain ⟨current, hup, hc, hc'⟩ := commit_update htx hst
  have hpurchased := flushed_eq_iff.2 (h.purchased hup)
  have hcarryover : liveCarryover (old.flush new current).carryoverCredits (old.flush new current).carryoverExpiresAt
      horizon = liveCarryover current.carryoverCredits current.carryoverExpiresAt horizon +
        (new.carryoverCredits - old.carryoverCredits) := by
    rcases h.carryover hup with ⟨hcredits, hexpiry⟩ | ⟨hintact, hlive, hlive'⟩
    · have hsame : (old.flush new current).carryoverCredits = current.carryoverCredits := by
        simp [SubscriptionRow.flush, hcredits]
      have hsame' : (old.flush new current).carryoverExpiresAt = current.carryoverExpiresAt := by
        simp [SubscriptionRow.flush, hexpiry]
      rw [hsame, hsame', hcredits]
      omega
    · rw [hlive, hlive']
      exact flushed_eq_iff.2 hintact
  unfold carryoverAt purchasedBalance
  rw [hc, hc']
  simp only [Option.elim_some]
  rw [hcarryover]
  have hp : (old.flush new current).purchasedCredits = current.purchasedCredits +
    (new.purchasedCredits - old.purchasedCredits) := hpurchased
  rw [hp]
  omega

end Pools

/-! ## What a commit does to the total -/

section Conservation

/-- What an acknowledged commit grants. -/
def WalletJob.granted (tx : Transaction) : WalletJob → ℤ
  | .consume _ _ => 0
  | .purchase credits _ => if tx.ledger.isSome then credits else 0
  | .changePlan tier => monthlyGrant (apiTierToDomain tier)

/-- What an acknowledged commit consumes. -/
def WalletJob.consumed : WalletJob → ℤ
  | .consume units _ => units
  | _ => 0

/-- The wallet row a commit was computed from. -/
def Transaction.loaded (tx : Transaction) : Option SubscriptionRow :=
  match tx.subscription with
  | some (_, .update old _) => some old
  | _ => none

/-- The wallet, as the job read it, covers what it consumes. -/
def Funded (s : Seen) (tx : Transaction) : WalletJob → Prop
  | .consume units _ => ∀ now, s.now = some now → units ≤ s.plan + tx.loaded.elim 0 fun row =>
      liveCarryover row.carryoverCredits row.carryoverExpiresAt now + row.purchasedCredits
  | _ => True

variable {userId : ℤ} {periodKey : String} {horizon : Instant} {db : Database} {tx : Transaction} {s : Seen}

/-- An unchanged tier still stands for a missing bucket. -/
theorem tier_commit {old new : SubscriptionRow} (htx : tx.subscription = some (userId, .update old new))
    (hst : db.stale tx = false) (h : UpToDate userId periodKey horizon db s tx) (hcredit : tx.credit = none) :
    ((db.commit tx).subscriptions userId).elim .free (·.tier) = (db.subscriptions userId).elim .free (·.tier) := by
  obtain ⟨current, hup, hc, hc'⟩ := commit_update htx hst
  have htier : new.tier = old.tier := by
    rcases h.tier hup with h | h
    · exact h
    · rw [hcredit] at h
      cases h
  rw [hc, hc']
  simp [SubscriptionRow.flush, htier]

theorem consume_conserves {units : ℤ} {origin : JobOrigin} (hb : Basis userId periodKey s tx (.consume units origin))
    (hst : db.stale tx = false) (hf : Funded s tx (.consume units origin))
    (hup : UpToDate userId periodKey horizon db s tx) :
    walletTotal userId periodKey horizon (db.commit tx) = walletTotal userId periodKey horizon db - units := by
  obtain ⟨b, b', wallet, now, first, write, hnow, hp, hc, hq, hspend, hcredit, hw, hsub, -⟩ := hb
  obtain ⟨c, p, q, hc', hp', hq', hc0, hcl, hp0, hq0, -, hsum⟩ := consumeFromWallet_spec hspend
  have hplan := planBalance_commit hcredit hst (hup.plan hcredit)
  have hfund := hf now hnow
  unfold walletTotal
  unfold availableTotal at hsum
  rcases wallet with _ | row
  · -- no wallet row: all of it comes from the plan
    have hnone : tx.subscription = none := hsub
    have hloaded : tx.loaded = none := by
      unfold Transaction.loaded
      rw [hnone]
    have hlive : liveCarryover b.carryoverCredits none now = 0 := by
      rw [hc]
      rfl
    have hnonneg := b'.purchased_nonneg
    unfold carryoverAt purchasedBalance
    rw [subscriptions_commit_none hnone, hplan]
    rw [hloaded] at hfund
    simp only [Option.elim_none, Option.bind_none] at hc hq hfund hsum hcl
    rw [hlive] at hsum hcl
    omega
  · have hsome : tx.subscription = some (userId, .update row { row with
        carryoverCredits := b'.carryoverCredits, purchasedCredits := b'.purchasedCredits }) := hsub
    have hloaded : tx.loaded = some row := by
      unfold Transaction.loaded
      rw [hsome]
    have hwallet := wallet_commit hsome hst hup
    rw [hloaded] at hfund
    simp only [Option.elim_some, Option.bind_some] at hc hq hfund hsum hwallet
    rw [hc] at hsum
    omega

theorem purchase_conserves {credits : ℤ} {referenceId : Option String}
    (hb : Basis userId periodKey s tx (.purchase credits referenceId)) (hv : db.violates tx = false)
    (hst : db.stale tx = false) (hup : UpToDate userId periodKey horizon db s tx) :
    walletTotal userId periodKey horizon (db.commit tx) =
      walletTotal userId periodKey horizon db + (WalletJob.purchase credits referenceId).granted tx := by
  obtain ⟨hcredit, ⟨hledger, write, hsub, hwrite⟩ | ⟨hledger, row, hsub⟩⟩ := hb
  · have hgranted : (WalletJob.purchase credits referenceId).granted tx = 0 := by
      simp [WalletJob.granted, hledger]
    rw [hgranted]
    unfold walletTotal
    rcases hwrite with rfl | ⟨row, rfl⟩
    · -- the first row of the user: an empty wallet on the FREE tier
      obtain ⟨hnone, hrow⟩ := subscriptions_commit_insert hsub hv
      rw [planBalance_commit_none hcredit (by rw [hrow, hnone]; rfl)]
      unfold carryoverAt purchasedBalance
      rw [hnone, hrow]
      simp [SubscriptionRow.fresh, liveCarryover]
    · have hwallet := wallet_commit hsub hst hup
      rw [planBalance_commit_none hcredit (tier_commit hsub hst hup hcredit)]
      simp only [SubscriptionRow.assign] at hwallet
      omega
  · have hgranted : (WalletJob.purchase credits referenceId).granted tx = credits := by
      simp [WalletJob.granted, hledger]
    have hwallet := wallet_commit hsub hst hup
    rw [hgranted]
    unfold walletTotal
    rw [planBalance_commit_none hcredit (tier_commit hsub hst hup hcredit)]
    simp only at hwallet
    omega

theorem changePlan_conserves {tier : ApiTier} (hb : Basis userId periodKey s tx (.changePlan tier))
    (hst : db.stale tx = false) (hup : UpToDate userId periodKey horizon db s tx) :
    walletTotal userId periodKey horizon (db.commit tx) =
      walletTotal userId periodKey horizon db + monthlyGrant (apiTierToDomain tier) := by
  obtain ⟨row, periodEnd, write, hsub, hcredit, hw⟩ := hb
  have hplan := planBalance_commit hcredit hst (hup.plan hcredit)
  have hwallet := wallet_commit hsub hst hup
  unfold walletTotal
  simp only [SubscriptionRow.upgraded] at hwallet
  omega

/-- **A commit** that is computed from what stands moves the total by what its job grants and consumes. -/
theorem commit_conserves {job : WalletJob} (hb : Basis userId periodKey s tx job) (hv : db.violates tx = false)
    (hst : db.stale tx = false) (hf : Funded s tx job) (hup : UpToDate userId periodKey horizon db s tx) :
    walletTotal userId periodKey horizon (db.commit tx) =
      walletTotal userId periodKey horizon db + job.granted tx - job.consumed := by
  cases job with
  | consume units origin =>
    rw [consume_conserves hb hst hf hup]
    simp [WalletJob.granted, WalletJob.consumed]
  | purchase credits referenceId =>
    rw [purchase_conserves hb hv hst hup]
    simp [WalletJob.consumed]
  | changePlan tier =>
    rw [changePlan_conserves hb hst hup]
    simp [WalletJob.granted, WalletJob.consumed]

end Conservation

/-! ## The system -/

section System

/-- The tables, with what each session has read, and what was granted and consumed in all. -/
structure WalletWorld where
  db : Database
  seen : ℕ → Seen := fun _ => {}
  granted : ℤ := 0
  consumed : ℤ := 0

def acknowledged : Event BillSig → Option Transaction
  | ⟨.commit tx, .ok _, _, _⟩ => some tx
  | _ => none

def WalletWorld.apply (w : WalletWorld) (i : ℕ) (job : WalletJob) (ev : Event BillSig) : WalletWorld where
  db := w.db.after ev
  seen := Function.update w.seen i ((w.seen i).step ev)
  granted := w.granted + (acknowledged ev).elim 0 fun tx => job.granted tx
  consumed := w.consumed + (acknowledged ev).elim 0 fun _ => job.consumed

/-- The writers of one wallet, in one credit period. -/
def walletSystem (stripe : StripeService) (userId : ℤ) (periodKey : String) : Sys BillSig where
  World := WalletWorld
  Tag := WalletJob
  spawn w i job p w' :=
    p = job.program stripe userId periodKey ∧ w' = { w with seen := Function.update w.seen i {} }
  Allowed w _ job ev := w.db.Allowed ev ∧ InPeriod periodKey job ev
  apply := WalletWorld.apply

variable {stripe : StripeService} {userId : ℤ} {periodKey : String} {horizon : Instant}

/-- The wallet never runs dry: it covers what each consumption takes. -/
def NeverDry (c : (walletSystem stripe userId periodKey).Config) (i : ℕ) (job : WalletJob) (ev : Event BillSig) : Prop :=
  (acknowledged ev).elim True fun tx => Funded (WalletWorld.seen c.world i) tx job

/-- The commit is up to date, or raised without effect. -/
def FreshCommit (userId : ℤ) (periodKey : String) (horizon : Instant) (db : Database) (s : Seen) :
    Event BillSig → Prop
  | ⟨.commit tx, .ok _, _, _⟩ => UpToDate userId periodKey horizon db s tx
  | ⟨.commit _, .error _, took, _⟩ => took = false
  | _ => True

/-- Every commit is computed from what stands, and one that raises has no effect. -/
def NoStaleCommit (horizon : Instant) (c : (walletSystem stripe userId periodKey).Config) (i : ℕ) (_ : WalletJob)
    (ev : Event BillSig) : Prop :=
  FreshCommit userId periodKey horizon (WalletWorld.db c.world) (WalletWorld.seen c.world i) ev

/-- The total is what it was at the start, plus what was granted, less what was consumed. -/
def Conserved (periodKey : String) (userId : ℤ) (horizon : Instant) (w₀ w : WalletWorld) : Prop :=
  walletTotal userId periodKey horizon w.db =
    walletTotal userId periodKey horizon w₀.db + (w.granted - w₀.granted) - (w.consumed - w₀.consumed)

@[simp] theorem seen_apply (w : WalletWorld) (i : ℕ) (job : WalletJob) (ev : Event BillSig) :
    (w.apply i job ev).seen i = (w.seen i).step ev :=
  Function.update_self ..

theorem seen_apply_of_ne {w : WalletWorld} {i j : ℕ} {job : WalletJob} {ev : Event BillSig} (hji : j ≠ i) :
    (w.apply i job ev).seen j = w.seen j :=
  Function.update_of_ne hji ..

/-- An exchange that acknowledges no commit leaves the tables and the sums. -/
theorem conserved_of_quiet {w₀ w : WalletWorld} {i : ℕ} {job : WalletJob} {ev : Event BillSig}
    (hack : acknowledged ev = none) (hdb : w.db.after ev = w.db) (hI : Conserved periodKey userId horizon w₀ w) :
    Conserved periodKey userId horizon w₀ (w.apply i job ev) := by
  unfold Conserved WalletWorld.apply at *
  simp only [hack, hdb, Option.elim_none]
  omega

/-- **The step**: an exchange whose commit is up to date keeps the total. -/
theorem apply_conserves {w₀ w : WalletWorld} {i : ℕ} {job : WalletJob} {op : BillOp} {out : Except PyError op.Ans}
    {took : Bool} {h} (hI : Conserved periodKey userId horizon w₀ w)
    (hpre : (walletMonitor userId periodKey job).pre (w.seen i) op) (hall : w.db.Allowed ⟨op, out, took, h⟩)
    (hdry : (acknowledged ⟨op, out, took, h⟩).elim True fun tx => Funded (w.seen i) tx job)
    (hfresh : FreshCommit userId periodKey horizon w.db (w.seen i) ⟨op, out, took, h⟩) :
    Conserved periodKey userId horizon w₀ (w.apply i job ⟨op, out, took, h⟩) := by
  cases op with
  | commit tx =>
    rcases out with e | a
    · obtain rfl : took = false := hfresh
      exact conserved_of_quiet rfl rfl hI
    · obtain rfl : took = true := h a rfl
      obtain ⟨hv, hst⟩ : w.db.violates tx = false ∧ w.db.stale tx = false := hall
      have hstep := commit_conserves hpre hv hst hdry hfresh
      unfold Conserved at *
      show walletTotal userId periodKey horizon (w.db.commit tx) = walletTotal userId periodKey horizon w₀.db +
        (w.granted + job.granted tx - w₀.granted) - (w.consumed + job.consumed - w₀.consumed)
      omega
  | _ => exact conserved_of_quiet rfl rfl hI

/-- The commits of a run whose every commit is up to date keep the total, and every thread its bases. -/
theorem preserved_wallet (w₀ : WalletWorld) : (walletSystem stripe userId periodKey).Preserved
    (Conserved periodKey userId horizon w₀)
    (fun w i job p => wp (walletMonitor userId periodKey job) p (fun _ _ => True) (WalletWorld.seen w i))
    (fun c i job ev => NeverDry c i job ev ∧ NoStaleCommit horizon c i job ev) where
  start_world := by
    rintro w w' i job p hI ⟨-, rfl⟩
    exact hI
  start_thread := by
    rintro w w' i job p - ⟨rfl, rfl⟩
    have hseen : Function.update (WalletWorld.seen w) i {} i = {} := Function.update_self ..
    simp only [hseen]
    exact program_spec stripe job
  start_other := by
    rintro w w' i job p - ⟨-, rfl⟩ j job' q hji hT
    have hseen : Function.update (WalletWorld.seen w) i {} j = WalletWorld.seen w j := Function.update_of_ne hji ..
    simp only [hseen]
    exact hT
  act_world := by
    rintro c i job op k out took h hI hT ⟨hall, -⟩ ⟨hdry, hfresh⟩
    exact apply_conserves hI hT.1 hall hdry hfresh
  act_thread := by
    rintro c i job op k out took h - hT ⟨-, hperiod⟩ -
    rw [show WalletWorld.seen ((walletSystem stripe userId periodKey).apply c.world i job ⟨op, out, took, h⟩) i = _ from
      seen_apply ..]
    exact hT.2 out took h hperiod
  act_other := by
    rintro c i job op k out took h - - - - j job' q hji - hT
    rw [show WalletWorld.seen ((walletSystem stripe userId periodKey).apply c.world i job ⟨op, out, took, h⟩) j = _ from
      seen_apply_of_ne hji]
    exact hT

end System

/-! ## Concrete runs -/

section Concrete

def defaultStripe : StripeService :=
  ⟨true, ⟨"price_pro_monthly", "price_pro_plus_monthly", "price_enterprise_monthly"⟩⟩

/-- A PRO user with a full bucket. -/
def proWallet : Database where
  subscriptions := Function.update (fun _ => none) 7 (some { userId := some 7, tier := .pro })
  credits := Function.update (fun _ _ => none) 7 (Function.update (fun _ => none) "2026-09" (some ⟨500, 500⟩))
  transactions := []

instance decidableInPeriod (periodKey : String) (job : WalletJob) (ev : Event BillSig) :
    Decidable (InPeriod periodKey job ev) := by
  unfold InPeriod
  split <;> infer_instance

def decidableExchange (w : WalletWorld) (job : WalletJob) (ev : Event BillSig) :
    Decidable (w.db.Allowed ev ∧ InPeriod "2026-09" job ev) :=
  inferInstance

/-- The tables answer at one instant. -/
def walletDriver : (walletSystem defaultStripe 7 "2026-09").Driver where
  reply w := (answering 0 none).reply (WalletWorld.db w)
  check w _ job ev := @decide _ (decidableExchange w job ev)
  sound {w _ job ev} h := @of_decide_eq_true _ (decidableExchange w job ev) h

def walletStarter (i : ℕ) (job : WalletJob) : (walletSystem defaultStripe 7 "2026-09").Starter i where
  start w := some (job, job.program defaultStripe 7 "2026-09", { w with seen := Function.update (WalletWorld.seen w) i {} })
  sound h := by
    cases h
    exact ⟨rfl, rfl⟩

def idleWallet : (walletSystem defaultStripe 7 "2026-09").Config := ⟨{ db := proWallet }, fun _ => none⟩

end Concrete

/-! ## No lost update -/

section NoLostUpdate

variable {stripe : StripeService} {userId : ℤ} {periodKey : String} {horizon : Instant}

/-- **No lost update**: along every interleaving of consumptions, purchases and changes of plan in which the wallet
never runs dry and every commit is computed from what stands, the total is the initial one plus everything granted
less everything consumed. -/
theorem total_conserved {c : (walletSystem stripe userId periodKey).Config}
    {tr : List ((walletSystem stripe userId periodKey).Label × (walletSystem stripe userId periodKey).Config)}
    (hc : ∀ i, c.threads i = none) (hs : (walletSystem stripe userId periodKey).Steps c tr)
    (hdry : Along (ActOnly NeverDry) c tr) (hfresh : Along (ActOnly (NoStaleCommit horizon)) c tr) :
    Along (fun _ _ c' => Conserved periodKey userId horizon c.world c'.world) c tr := by
  have hstart : (walletSystem stripe userId periodKey).Inv (Conserved periodKey userId horizon c.world)
      (fun w i job p => wp (walletMonitor userId periodKey job) p (fun _ _ => True) (WalletWorld.seen w i)) c := by
    refine ⟨?_, fun i job p hi => ?_⟩
    · unfold Conserved
      omega
    · rw [hc] at hi
      cases hi
  have hboth : Along (ActOnly fun c i job ev => NeverDry c i job ev ∧ NoStaleCommit horizon c i job ev) c tr := by
    refine along_mono (fun c l c' h => ?_) (along_and.2 ⟨hdry, hfresh⟩)
    cases l with
    | act i job ev => exact h
    | _ => exact trivial
  exact along_of_preserved (preserved_wallet c.world)
    (fun c l c' hI hst hl => (inv_step (preserved_wallet _) hI hst hl).1) hstart hs hboth

/-- A consumption, then a purchase of ten credits. -/
def consumeThenPurchase :
    List ((walletSystem defaultStripe 7 "2026-09").Label × (walletSystem defaultStripe 7 "2026-09").Config) :=
  Sys.drive walletDriver idleWallet
    [.start 0 (walletStarter 0 (.consume 1 .web)), .go 0, .go 0, .go 0, .go 0, .go 0,
      .start 1 (walletStarter 1 (.purchase 10 (some "cs_1"))), .go 1, .go 1, .go 1, .go 1, .go 1]

theorem total_conserved_consumeThenPurchase :
    Along (fun _ _ c' => Conserved "2026-09" 7 0 idleWallet.world c'.world) idleWallet consumeThenPurchase := by
  refine total_conserved (fun _ => rfl) (steps_drive _ _ _) ?_ ?_
  · exact ⟨trivial, trivial, trivial, trivial, trivial, fun now h => (by cases h; decide), trivial, trivial, trivial,
      trivial, trivial, trivial, trivial⟩
  · have hplan : Intact 500 500 499 500 := by decide
    have hpurchased : Intact 0 0 10 0 := by decide
    exact ⟨trivial, trivial, trivial, trivial, trivial,
      upToDate_of_loaded (fun h => (by cases h; exact hplan)) rfl rfl (by decide) (.inl ⟨rfl, rfl⟩) rfl, trivial, trivial,
      trivial, trivial, trivial, upToDate_of_loaded (fun h => (by cases h)) rfl rfl hpurchased (.inl ⟨rfl, rfl⟩) rfl,
      trivial⟩

/-- Two consumptions of one unit, each reading before the other commits. -/
def racingConsumptions : List ((walletSystem defaultStripe 7 "2026-09").Label × (walletSystem defaultStripe 7 "2026-09").Config) :=
  Sys.drive walletDriver idleWallet
    [.start 0 (walletStarter 0 (.consume 1 .web)), .start 1 (walletStarter 1 (.consume 1 .web)),
      .go 0, .go 0, .go 0, .go 1, .go 1, .go 1, .go 0, .go 0, .go 1, .go 1]

theorem racing_neverDry : Along (ActOnly NeverDry) idleWallet racingConsumptions :=
  ⟨trivial, trivial, trivial, trivial, trivial, trivial, trivial, trivial, trivial,
    fun now h => by cases h; decide, trivial, fun now h => by cases h; decide, trivial⟩

/-- The second commit writes the balance that the first has already replaced. -/
theorem update_lost : ¬ ∀ (stripe : StripeService) (userId : ℤ) (periodKey : String) (horizon : Instant)
    (c : (walletSystem stripe userId periodKey).Config)
    (tr : List ((walletSystem stripe userId periodKey).Label × (walletSystem stripe userId periodKey).Config)),
    (∀ i, c.threads i = none) → (walletSystem stripe userId periodKey).Steps c tr → Along (ActOnly NeverDry) c tr →
    Along (fun _ _ c' => Conserved periodKey userId horizon c.world c'.world) c tr := by
  intro h
  have hlast := last_of_along (K := fun c : (walletSystem defaultStripe 7 "2026-09").Config =>
      Conserved "2026-09" 7 0 idleWallet.world c.world) (by rfl)
    (h defaultStripe 7 "2026-09" 0 idleWallet racingConsumptions (fun _ => rfl) (steps_drive _ _ _) racing_neverDry)
  have htotal : walletTotal 7 "2026-09" 0 (WalletWorld.db (lastConfig idleWallet racingConsumptions).world) = 499 := by
    rfl
  have hexpected : walletTotal 7 "2026-09" 0 (WalletWorld.db idleWallet.world) +
      (WalletWorld.granted (lastConfig idleWallet racingConsumptions).world - WalletWorld.granted idleWallet.world) -
      (WalletWorld.consumed (lastConfig idleWallet racingConsumptions).world - WalletWorld.consumed idleWallet.world) =
        498 := by rfl
  unfold Conserved at hlast
  rw [htotal, hexpected] at hlast
  cases hlast

end NoLostUpdate

end Transform.Billing
