import Transform.Access.Authority

/-!
# Access.Revocation — what a revocation ends, and what a new consent brings back

A revocation marks the grant and sweeps its tokens; codes are left, and a token that is stored after the sweep is left
too.  They are dead as long as the grant is, and a new consent reactivates the same row.  `revocation_final` says when
nothing from before a revocation is accepted after it; `revived_by_consent` is a run in which an old code is.
-/

namespace Transform.Access

open Lib Conversions

variable {ctx : AccessContext} {w : AccessWorld} {i j : ℕ} {party : AccessParty} {g : Grip} {id grantId : String}
  {moment : Instant}

/-! ## Epochs -/

section Epochs

/-- What descends from consents before the last revocation of the grant has ended: codes are used or expired, tokens
revoked or expired. -/
structure AccessWorld.Lapsed (w : AccessWorld) (grantId : String) (moment : Instant) : Prop where
  codes : ∀ codeHash row, w.codes codeHash = some row → row.grantId = grantId →
    w.codeEpoch codeHash ≠ w.epoch grantId → row.usedAt ≠ none ∨ row.expiresAt ≤ moment
  tokens : ∀ tokenHash row, w.tokens tokenHash = some row → row.grantId = grantId →
    w.tokenEpoch tokenHash ≠ w.epoch grantId → row.revokedAt ≠ none ∨ row.expiresAt ≤ moment

/-- The UPDATE takes a grant out of its revocation. -/
def AccessWorld.Reactivates (w : AccessWorld) (loaded changed : GrantRow) : Prop :=
  ∃ old, w.grants loaded.id = some old ∧ old.status = .revoked ∧ (loaded.flush changed old).status ≠ .revoked

theorem lapsed_later {later : Instant} (h : w.Lapsed grantId moment) (hle : moment ≤ later) : w.Lapsed grantId later where
  codes codeHash row hrow hid hepoch := (h.codes codeHash row hrow hid hepoch).imp_right fun h => h.trans hle
  tokens tokenHash row hrow hid hepoch := (h.tokens tokenHash row hrow hid hepoch).imp_right fun h => h.trans hle

/-- Nothing descends from the consents of a grant that is not stored. -/
theorem lapsed_of_none (hI : TablesInv ctx w) (h : w.grants grantId = none) : w.Lapsed grantId moment where
  codes codeHash row hrow hid _ := by
    obtain ⟨-, grant, hgrant⟩ := hI.code codeHash row hrow
    rw [hid, h] at hgrant
    cases hgrant
  tokens tokenHash row hrow hid _ := by
    obtain ⟨-, -, ⟨grant, hgrant, -⟩, -⟩ := hI.token tokenHash row hrow
    rw [hid, h] at hgrant
    cases hgrant

theorem epoch_apply {ev : Event AccessSig}
    (h : ∀ loaded changed, ev.op = .updateGrant loaded changed → ev.took = true → loaded.id = id →
      ¬ AccessWorld.Revokes loaded changed) :
    (w.apply ctx i party ev).epoch id = w.epoch id := by
  unfold AccessWorld.apply
  split
  case h_5 loaded changed _ _ =>
    unfold AccessWorld.updateGrant
    dsimp only
    split_ifs with hrevokes
    · by_cases hid : id = loaded.id
      · exact absurd hrevokes (h loaded changed rfl rfl hid.symm)
      · exact Function.update_of_ne hid _ _
    · rfl
  all_goals rfl

theorem not_revokes {loaded changed old : GrantRow} (h : (loaded.flush changed old).status ≠ .revoked) :
    ¬ AccessWorld.Revokes loaded changed := by
  rintro ⟨hrevoked, hloaded⟩
  have hne : changed.status ≠ loaded.status := by
    rw [hrevoked]
    exact hloaded.symm
  have hflushed : (loaded.flush changed old).status = changed.status := if_neg hne
  exact h (hflushed.trans hrevoked)

theorem active_apply {ev : Event AccessSig} {row : GrantRow} (h : (w.apply ctx i party ev).grants id = some row)
    (hstatus : row.status ≠ .revoked) :
    (w.apply ctx i party ev).epoch id = w.epoch id ∧
      ((∃ old, w.grants id = some old ∧ old.status ≠ .revoked) ∨
        (ev.op = .insertGrant row ∧ ev.took = true ∧ row.id = id) ∨
        ∃ loaded changed, ev.op = .updateGrant loaded changed ∧ ev.took = true ∧ loaded.id = id ∧
          w.Reactivates loaded changed) := by
  by_cases hup : ∃ loaded changed, ev.op = .updateGrant loaded changed ∧ ev.took = true ∧ loaded.id = id
  · obtain ⟨loaded, changed, hop, htook, rfl⟩ := hup
    obtain ⟨op, out, took, hk⟩ := ev
    obtain rfl : op = .updateGrant loaded changed := hop
    obtain rfl : took = true := htook
    replace h : Function.update w.grants loaded.id ((w.grants loaded.id).map (loaded.flush changed)) loaded.id = some row := h
    rw [Function.update_self] at h
    obtain ⟨old, hold, rfl⟩ := Option.map_eq_some_iff.1 h
    refine ⟨epoch_apply fun loaded' changed' hop _ _ => ?_, ?_⟩
    · cases hop
      exact not_revokes hstatus
    · by_cases hrevoked : old.status = .revoked
      · exact .inr (.inr ⟨loaded, changed, rfl, rfl, rfl, old, hold, hrevoked, hstatus⟩)
      · exact .inl ⟨old, hold, hrevoked⟩
  · refine ⟨epoch_apply fun loaded changed hop htook hid => absurd ⟨loaded, changed, hop, htook, hid⟩ hup, ?_⟩
    rcases grantRow_apply h with ⟨old, lastUsedAt, hold, rfl⟩ | hinserted | ⟨loaded, changed, -, hop, htook, hid, -⟩
    · exact .inl ⟨old, hold, hstatus⟩
    · exact .inr (.inl hinserted)
    · exact absurd ⟨loaded, changed, hop, htook, hid⟩ hup

theorem codeEpoch_apply {ev : Event AccessSig} (h : ∀ row, ev.op ≠ .insertCode row) :
    (w.apply ctx i party ev).codeEpoch = w.codeEpoch := by
  unfold AccessWorld.apply
  split
  case h_7 => exact absurd rfl (h _)
  all_goals rfl

theorem tokenEpoch_apply {ev : Event AccessSig} (h : ∀ row, ev.op ≠ .insertToken row) :
    (w.apply ctx i party ev).tokenEpoch = w.tokenEpoch := by
  unfold AccessWorld.apply
  split
  case h_9 => exact absurd rfl (h _)
  all_goals rfl

theorem lapsed_apply {ev : Event AccessSig} (h : w.Lapsed id moment) (hcode : ∀ row, ev.op ≠ .insertCode row)
    (htoken : ∀ row, ev.op ≠ .insertToken row) (hepoch : (w.apply ctx i party ev).epoch id = w.epoch id) :
    (w.apply ctx i party ev).Lapsed id moment where
  codes codeHash row hrow hid hne := by
    rw [codeEpoch_apply hcode, hepoch] at hne
    rcases codes_apply hrow with ⟨old, hold, usedAt, rfl, hspent⟩ | ⟨hop, -⟩
    · exact (h.codes codeHash old hold hid hne).imp_left fun hused hnone => hused (hspent hnone)
    · exact absurd hop (hcode _)
  tokens tokenHash row hrow hid hne := by
    rw [tokenEpoch_apply htoken, hepoch] at hne
    rcases tokens_apply hrow with ⟨old, hold, revokedAt, rfl, hended⟩ | ⟨hop, -⟩
    · exact (h.tokens tokenHash old hold hid hne).imp_left fun hrevoked hnone => hrevoked (hended hnone)
    · exact absurd hop (htoken _)

/-- What a call stores descends from the consent that it holds. -/
theorem lapsed_insertCode {row : CodeRow} (h : w.Lapsed id moment)
    (hheld : row.grantId = id → w.heldEpoch i = w.epoch id) : (w.insertCode i row).Lapsed id moment where
  codes codeHash row' hrow hid hne := by
    replace hrow : Function.update w.codes row.codeHash (some row) codeHash = some row' := hrow
    replace hne : Function.update w.codeEpoch row.codeHash (w.heldEpoch i) codeHash ≠ w.epoch id := hne
    by_cases hc : codeHash = row.codeHash
    · subst hc
      rw [Function.update_self] at hrow hne
      cases hrow
      exact absurd (hheld hid) hne
    · rw [Function.update_of_ne hc] at hrow hne
      exact h.codes codeHash row' hrow hid hne
  tokens := h.tokens

theorem lapsed_insertToken {row : TokenRow} (h : w.Lapsed id moment)
    (hheld : row.grantId = id → w.heldEpoch i = w.epoch id) : (w.insertToken i row).Lapsed id moment where
  codes := h.codes
  tokens tokenHash row' hrow hid hne := by
    replace hrow : Function.update w.tokens row.tokenHash (some row) tokenHash = some row' := hrow
    replace hne : Function.update w.tokenEpoch row.tokenHash (w.heldEpoch i) tokenHash ≠ w.epoch id := hne
    by_cases ht : tokenHash = row.tokenHash
    · subst ht
      rw [Function.update_self] at hrow hne
      cases hrow
      exact absurd (hheld hid) hne
    · rw [Function.update_of_ne ht] at hrow hne
      exact h.tokens tokenHash row' hrow hid hne

end Epochs

/-! ## What a call holds -/

section Holding

/-- What the call holds is of the consent, the code or the token that it has read; and the grant that it has read was
of that epoch. -/
structure Grip.Holds (g : Grip) (w : AccessWorld) (i : ℕ) : Prop where
  consent : ∀ id, g.consent = some id → ∃ e, w.held i = some (id, e)
  code : ∀ row, g.code = some row → ∃ e, w.held i = some (row.grantId, e)
  token : ∀ row, g.Good row → ∃ e, w.held i = some (row.grantId, e)
  checked : ∀ row, g.Passed row → ∀ e, w.held i = some (row.id, e) → w.checked i = e

/-- If the grant is not revoked, what the call holds is of its present epoch, and nothing from before is left for it. -/
structure Grip.Tenure (g : Grip) (w : AccessWorld) (i : ℕ) : Prop extends g.Holds w i where
  lapsed : ∀ id row, w.grants id = some row → row.status ≠ .revoked → w.Lapsed id (w.read i)
  current : ∀ id row, w.grants id = some row → row.status ≠ .revoked → ∀ e, w.held i = some (id, e) → e = w.epoch id
  stored : ∀ id e, w.held i = some (id, e) → ∃ row, w.grants id = some row

theorem holds_fresh : g.fresh.Holds w i where
  consent _ h := by cases h
  code _ h := by cases h
  token _ h := by cases h.1
  checked _ h := by cases h.1

theorem holds_congr {w' : AccessWorld} {g' : Grip} (hv : g.Holds w i) (hheld : w'.held i = w.held i)
    (hchecked : w'.checked i = w.checked i) (hconsent : g'.consent = g.consent) (hcode : g'.code = g.code)
    (htoken : g'.token = g.token) (hnow : g'.now = g.now) (hgrant : g'.grant = g.grant) : g'.Holds w' i := by
  refine ⟨fun id h => ?_, fun row h => ?_, fun row h => ?_, fun row h => ?_⟩
  · rw [hheld]
    exact hv.consent id (hconsent.symm.trans h)
  · rw [hheld]
    exact hv.code row (hcode.symm.trans h)
  · obtain ⟨hrow, now, hn, hgood⟩ := h
    rw [hheld]
    exact hv.token row ⟨htoken.symm.trans hrow, now, hnow.symm.trans hn, hgood⟩
  · rw [hheld, hchecked]
    exact hv.checked row ⟨hgrant.symm.trans h.1, h.2⟩

theorem held_of_redeemed {grant : GrantRow} (hv : g.Tenure w i) (h : g.Redeemed party grant) :
    ∃ e, w.held i = some (grant.id, e) := by
  cases party with
  | exchangeCode req =>
    obtain ⟨code, hcode, hid⟩ := h
    rw [← hid]
    exact hv.code code hcode
  | exchangeRefresh req =>
    obtain ⟨-, token, hgood, hid⟩ := h
    rw [← hid]
    exact hv.token token hgood
  | _ => exact h.elim

/-- What a call comes to hold. -/
theorem held_apply {ev : Event AccessSig} {e : ℕ} (h : (w.apply ctx i party ev).held i = some (id, e)) :
    w.held i = some (id, e) ∨
      (∃ row, ev.op = .insertGrant row ∧ ev.took = true ∧ row.id = id ∧ e = w.epoch id) ∨
      (∃ loaded changed, ev.op = .updateGrant loaded changed ∧ loaded.id = id ∧ e = w.epoch id) ∨
      (∃ codeHash now row, ev.op = .takeCode codeHash now ∧ w.redeemable codeHash now = some row ∧ row.grantId = id ∧
        e = w.codeEpoch codeHash) ∨
      ∃ tokenHash row took hk, ev = ⟨.getToken tokenHash, .ok (some row), took, hk⟩ ∧ row.revokedAt = none ∧
        w.read i < row.expiresAt ∧ row.grantId = id ∧ e = w.tokenEpoch row.tokenHash := by
  unfold AccessWorld.apply at h
  split at h
  case h_4 row _ _ =>
    replace h : w.holding i row.id (w.epoch row.id) i = some (id, e) := h
    unfold AccessWorld.holding at h
    rw [Function.update_self] at h
    cases h
    exact .inr (.inl ⟨row, rfl, rfl, rfl, rfl⟩)
  case h_5 loaded changed _ _ =>
    unfold AccessWorld.updateGrant at h
    dsimp only at h
    split_ifs at h
    · unfold AccessWorld.holding at h
      rw [Function.update_self] at h
      cases h
      exact .inr (.inr (.inl ⟨loaded, changed, rfl, rfl, rfl⟩))
    · exact .inl h
  case h_8 codeHash now _ _ =>
    unfold AccessWorld.takeCode at h
    rcases hr : w.redeemable codeHash now with _ | row
    · rw [hr] at h
      exact .inl h
    · rw [hr] at h
      replace h : w.holding i row.grantId (w.codeEpoch codeHash) i = some (id, e) := h
      unfold AccessWorld.holding at h
      rw [Function.update_self] at h
      cases h
      exact .inr (.inr (.inr (.inl ⟨codeHash, now, row, rfl, hr, rfl, rfl⟩)))
  case h_10 tokenHash row took hk =>
    unfold AccessWorld.readToken at h
    dsimp only at h
    split_ifs at h with hgood
    · unfold AccessWorld.holding at h
      rw [Function.update_self] at h
      cases h
      exact .inr (.inr (.inr (.inr ⟨tokenHash, row, took, hk, rfl, hgood.1, hgood.2, rfl, rfl⟩)))
    · exact .inl h
  all_goals exact .inl h

theorem held_other {ev : Event AccessSig} (hji : j ≠ i) : (w.apply ctx i party ev).held j = w.held j := by
  have hset : ∀ grantId e, w.holding i grantId e j = w.held j := fun _ _ => Function.update_of_ne hji _ _
  unfold AccessWorld.apply
  split
  case h_4 => exact hset _ _
  case h_5 =>
    unfold AccessWorld.updateGrant
    dsimp only
    split_ifs
    · exact hset _ _
    · rfl
  case h_8 codeHash now _ _ =>
    unfold AccessWorld.takeCode
    rcases w.redeemable codeHash now with _ | row
    · rfl
    · exact hset _ _
  case h_10 =>
    unfold AccessWorld.readToken
    dsimp only
    split_ifs
    · exact hset _ _
    · rfl
  all_goals rfl

/-- Most exchanges leave the call with what it holds. -/
theorem held_quiet {ev : Event AccessSig} (hinsert : ∀ row, ev.op ≠ .insertGrant row)
    (hupdate : ∀ loaded changed, ev.op ≠ .updateGrant loaded changed) (htake : ∀ codeHash now, ev.op ≠ .takeCode codeHash now)
    (hread : ∀ tokenHash, ev.op ≠ .getToken tokenHash) : (w.apply ctx i party ev).held = w.held := by
  unfold AccessWorld.apply
  split
  case h_4 => exact absurd rfl (hinsert _)
  case h_5 => exact absurd rfl (hupdate _ _)
  case h_8 => exact absurd rfl (htake _ _)
  case h_10 => exact absurd rfl (hread _)
  all_goals rfl

theorem checked_apply {ev : Event AccessSig} (h : (∀ id, ev.op ≠ .getGrant id) ∨ j ≠ i) :
    (w.apply ctx i party ev).checked j = w.checked j := by
  unfold AccessWorld.apply
  split
  case h_3 =>
    rcases h with h | h
    · exact absurd rfl (h _)
    · exact Function.update_of_ne h _ _
  all_goals rfl

end Holding

/-! ## Runs -/

section Runs

/-- Of every grant that is not revoked, what descends from consents before its last revocation has ended. -/
def LapsedGrants (w : AccessWorld) : Prop :=
  ∀ id row, w.grants id = some row → row.status ≠ .revoked → w.Lapsed id w.clock

/-- The clock does not go back, and a grant is taken out of its revocation only when everything from before has ended,
also for the calls that run, and none of them holds any of it. -/
def RevokesForGood (c : (accessSystem ctx).Config) (w : AccessWorld) (i : ℕ) : Event AccessSig → Prop
  | ⟨.now, .ok now, _, _⟩ => w.clock ≤ now
  | ⟨.updateGrant loaded changed, _, true, _⟩ => w.Reactivates loaded changed → w.Lapsed loaded.id w.clock ∧
      ∀ j, j = i ∨ (c.threads j).isSome = true → w.Lapsed loaded.id (w.read j) ∧
        ∀ e, w.held j = some (loaded.id, e) → e = w.epoch loaded.id
  | _ => True

/-- The same of an exchange of a run. -/
def RevokesForGoodAt (ctx : AccessContext) (c : (accessSystem ctx).Config) (i : ℕ) (_ : AccessParty)
    (ev : Event AccessSig) : Prop := RevokesForGood c c.world i ev

/-- Tokens are returned, or an access token is resolved, for what descends from a consent that no revocation of its grant
had followed when the call checked the grant. -/
def AcceptsLive (c : (accessSystem ctx).Config) : (accessSystem ctx).Label → (accessSystem ctx).Config → Prop
  | .act i _ ⟨.respond (.tokens _), _, _, _⟩, _ =>
    ∃ id, AccessWorld.held c.world i = some (id, AccessWorld.checked c.world i)
  | .act i _ ⟨.respond (.record (some _)), _, _, _⟩, _ =>
    ∃ id, AccessWorld.held c.world i = some (id, AccessWorld.checked c.world i)
  | _, _ => True

theorem heldEpoch_current {e : ℕ} {row : GrantRow} (hv : g.Tenure w i) (hrow : w.grants id = some row)
    (hstatus : row.status ≠ .revoked) (hheld : w.held i = some (id, e)) : w.heldEpoch i = w.epoch id := by
  unfold AccessWorld.heldEpoch
  rw [hheld]
  exact hv.current id row hrow hstatus e hheld

theorem lapsed_step {ev : Event AccessSig} {row : GrantRow} (hI : TablesInv ctx w) (hv : g.Tenure w i)
    (hpre : Permitted ctx party g ev.op) (hall : w.Allowed ctx ev)
    (h : (w.apply ctx i party ev).grants id = some row) (hstatus : row.status ≠ .revoked)
    (hold : ∀ old, w.grants id = some old → old.status ≠ .revoked → w.Lapsed id moment)
    (hrevived : ∀ loaded changed, ev.op = .updateGrant loaded changed → ev.took = true → loaded.id = id →
      w.Reactivates loaded changed → w.Lapsed id moment) :
    (w.apply ctx i party ev).Lapsed id moment := by
  obtain ⟨hepoch, hactive⟩ := active_apply h hstatus
  obtain ⟨op, out, took, hk⟩ := ev
  rcases hactive with ⟨old, hrow, hlive⟩ | ⟨hop, htook, hid⟩ | ⟨loaded, changed, hop, htook, hid, hreactivates⟩
  · have hbefore : w.Lapsed id moment := hold old hrow hlive
    by_cases hcode : ∃ code, op = .insertCode code
    · obtain ⟨code, rfl⟩ := hcode
      cases took with
      | false => exact hbefore
      | true =>
        refine lapsed_insertCode hbefore fun hid => ?_
        obtain ⟨e, hheld⟩ := hv.consent _ hpre.2.1
        rw [hid] at hheld
        exact heldEpoch_current hv hrow hlive hheld
    · by_cases htoken : ∃ token, op = .insertToken token
      · obtain ⟨token, rfl⟩ := htoken
        cases took with
        | false => exact hbefore
        | true =>
          refine lapsed_insertToken hbefore fun hid => ?_
          obtain ⟨-, -, -, grant, scopes, -, hredeemed, -, hgrant, -⟩ := hpre
          have hheld : ∃ e, w.held i = some (id, e) := by
            rw [← hid, hgrant]
            exact held_of_redeemed hv hredeemed
          obtain ⟨e, hheld⟩ := hheld
          exact heldEpoch_current hv hrow hlive hheld
      · exact lapsed_apply hbefore (fun code hop => hcode ⟨code, hop⟩) (fun token hop => htoken ⟨token, hop⟩) hepoch
  · obtain rfl : op = .insertGrant row := hop
    obtain rfl : took = true := htook
    have hnone : w.grants id = none := by
      rw [← hid]
      exact (hall rfl).1
    exact lapsed_apply (lapsed_of_none hI hnone) (fun _ hop => (by cases hop)) (fun _ hop => (by cases hop)) hepoch
  · have hbefore := hrevived loaded changed hop htook hid hreactivates
    refine lapsed_apply hbefore (fun _ hop' => ?_) (fun _ hop' => ?_) hepoch
    · rw [hop] at hop'
      cases hop'
    · rw [hop] at hop'
      cases hop'

theorem current_step {ev : Event AccessSig} {c : (accessSystem ctx).Config} {row : GrantRow} {e : ℕ} {g' : Grip}
    (hv : g'.Tenure w j) (hall : w.Allowed ctx ev) (hφ : RevokesForGood c w i ev)
    (hj : j = i ∨ (c.threads j).isSome = true) (h : (w.apply ctx i party ev).grants id = some row)
    (hstatus : row.status ≠ .revoked) (hheld : w.held j = some (id, e)) : e = (w.apply ctx i party ev).epoch id := by
  obtain ⟨hepoch, hactive⟩ := active_apply h hstatus
  rw [hepoch]
  obtain ⟨op, out, took, hk⟩ := ev
  rcases hactive with ⟨old, hrow, hlive⟩ | ⟨hop, htook, hid⟩ | ⟨loaded, changed, hop, htook, rfl, hreactivates⟩
  · exact hv.current id old hrow hlive e hheld
  · obtain rfl : op = .insertGrant row := hop
    obtain rfl : took = true := htook
    obtain ⟨old, hrow⟩ := hv.stored id e hheld
    have hnone : w.grants row.id = none := (hall rfl).1
    rw [hid, hrow] at hnone
    cases hnone
  · obtain rfl : op = .updateGrant loaded changed := hop
    obtain rfl : took = true := htook
    exact ((hφ hreactivates).2 j hj).2 e hheld

theorem revived_lapsed {ev : Event AccessSig} {c : (accessSystem ctx).Config} (hφ : RevokesForGood c w i ev)
    {loaded changed : GrantRow} (hop : ev.op = .updateGrant loaded changed) (htook : ev.took = true)
    (hid : loaded.id = id) (hreactivates : w.Reactivates loaded changed) :
    w.Lapsed id w.clock ∧ ∀ j, j = i ∨ (c.threads j).isSome = true → w.Lapsed id (w.read j) := by
  obtain ⟨op, out, took, hk⟩ := ev
  obtain rfl : op = .updateGrant loaded changed := hop
  obtain rfl : took = true := htook
  subst hid
  obtain ⟨hclock, hrunning⟩ := hφ hreactivates
  exact ⟨hclock, fun j hj => (hrunning j hj).1⟩

theorem clock_apply {ev : Event AccessSig} {c : (accessSystem ctx).Config} (hφ : RevokesForGood c w i ev) :
    w.clock ≤ (w.apply ctx i party ev).clock := by
  unfold AccessWorld.apply
  split
  case h_1 => exact hφ
  all_goals exact le_refl _

theorem lapsedGrants_apply {ev : Event AccessSig} {c : (accessSystem ctx).Config} (hI : TablesInv ctx w)
    (hL : LapsedGrants w) (hv : g.Tenure w i) (hpre : Permitted ctx party g ev.op) (hall : w.Allowed ctx ev)
    (hφ : RevokesForGood c w i ev) : LapsedGrants (w.apply ctx i party ev) := by
  intro id row h hstatus
  refine lapsed_later (lapsed_step hI hv hpre hall h hstatus (hL id) fun loaded changed hop htook hid hr => ?_)
    (clock_apply hφ)
  exact (revived_lapsed hφ hop htook hid hr).1

/-- What a call holds stays current while it is another's turn. -/
theorem tenure_other {ev : Event AccessSig} {c : (accessSystem ctx).Config} {g' : Grip} (hji : j ≠ i)
    (hj : (c.threads j).isSome = true) (hI : TablesInv ctx w) (hv : g.Tenure w i) (hv' : g'.Tenure w j)
    (hpre : Permitted ctx party g ev.op) (hall : w.Allowed ctx ev) (hφ : RevokesForGood c w i ev) :
    g'.Tenure (w.apply ctx i party ev) j := by
  have hheld : (w.apply ctx i party ev).held j = w.held j := held_other hji
  have hread : (w.apply ctx i party ev).read j = w.read j := read_apply (.inr hji)
  refine ⟨holds_congr hv'.toHolds hheld (checked_apply (.inr hji)) rfl rfl rfl rfl rfl, fun id row h hstatus => ?_,
    fun id row h hstatus e he => ?_, fun id e he => ?_⟩
  · rw [hread]
    refine lapsed_step hI hv hpre hall h hstatus (hv'.lapsed id) fun loaded changed hop htook hid hr => ?_
    exact (revived_lapsed hφ hop htook hid hr).2 j (.inr hj)
  · rw [hheld] at he
    exact current_step hv' hall hφ (.inr hj) h hstatus he
  · rw [hheld] at he
    obtain ⟨row, hrow⟩ := hv'.stored id e he
    have hgrows : w.Grows (w.apply ctx i party ev) := grows_apply hall
    obtain ⟨row', hrow', -⟩ := hgrows.grants id row hrow
    exact ⟨row', hrow'⟩

theorem lapsed_self {ev : Event AccessSig} {c : (accessSystem ctx).Config} {row : GrantRow} (hI : TablesInv ctx w)
    (hL : LapsedGrants w) (hv : g.Tenure w i) (hpre : Permitted ctx party g ev.op) (hall : w.Allowed ctx ev)
    (hφ : RevokesForGood c w i ev) (h : (w.apply ctx i party ev).grants id = some row) (hstatus : row.status ≠ .revoked) :
    (w.apply ctx i party ev).Lapsed id ((w.apply ctx i party ev).read i) := by
  have hrevived : ∀ loaded changed, ev.op = .updateGrant loaded changed → ev.took = true → loaded.id = id →
      w.Reactivates loaded changed → w.Lapsed id (w.read i) :=
    fun loaded changed hop htook hid hr => (revived_lapsed hφ hop htook hid hr).2 i (.inl rfl)
  by_cases hnow : ∃ now took hk, ev = ⟨.now, .ok now, took, hk⟩
  · obtain ⟨now, took, hk, rfl⟩ := hnow
    have hread : (w.apply ctx i party ⟨.now, .ok now, took, hk⟩).read i = now := Function.update_self ..
    have hclock : w.clock ≤ now := hφ
    rw [hread]
    exact lapsed_step hI hv hpre hall h hstatus (fun old hrow hlive => lapsed_later (hL id old hrow hlive) hclock)
      fun _ _ hop => (by cases hop)
  · have hread : (w.apply ctx i party ev).read i = w.read i := by
      unfold AccessWorld.apply
      split
      case h_1 => exact absurd ⟨_, _, _, rfl⟩ hnow
      all_goals rfl
    rw [hread]
    exact lapsed_step hI hv hpre hall h hstatus (hv.lapsed id) hrevived

theorem current_self {ev : Event AccessSig} {c : (accessSystem ctx).Config} {row : GrantRow} {e : ℕ}
    (hI : TablesInv ctx w) (hb : g.Borne w i party) (hv : g.Tenure w i) (hpre : Permitted ctx party g ev.op)
    (hall : w.Allowed ctx ev) (hφ : RevokesForGood c w i ev) (h : (w.apply ctx i party ev).grants id = some row)
    (hstatus : row.status ≠ .revoked) (hheld : (w.apply ctx i party ev).held i = some (id, e)) :
    e = (w.apply ctx i party ev).epoch id := by
  obtain ⟨hepoch, hactive⟩ := active_apply h hstatus
  have hwas : (∀ row, ev.op ≠ .insertGrant row) → (∀ loaded changed, ev.op ≠ .updateGrant loaded changed) →
      ∃ old, w.grants id = some old ∧ old.status ≠ .revoked := by
    intro hinsert hupdate
    rcases hactive with hold | ⟨hop, -⟩ | ⟨loaded, changed, hop, -⟩
    · exact hold
    · exact absurd hop (hinsert row)
    · exact absurd hop (hupdate loaded changed)
  rcases held_apply hheld with hsame | ⟨_, -, -, -, rfl⟩ | ⟨_, _, -, -, rfl⟩ | ⟨codeHash, now, code, hop, hr, hid, rfl⟩ |
    ⟨tokenHash, token, took, hk, rfl, hlive, hunexpired, hid, rfl⟩
  · exact current_step hv hall hφ (.inl rfl) h hstatus hsame
  · exact hepoch.symm
  · exact hepoch.symm
  · obtain ⟨old, hrow, hactive⟩ := hwas (by rw [hop]; simp) (by rw [hop]; simp)
    rw [hop] at hpre
    obtain ⟨hcode, hunused, hunexpired⟩ := redeemable_some hr
    rw [hepoch]
    by_contra hne
    rcases (hv.lapsed id old hrow hactive).codes codeHash code hcode hid hne with hused | hexpired
    · exact hused hunused
    · rw [hb.now now hpre.2] at hexpired
      exact absurd hunexpired (not_lt.2 hexpired)
  · obtain ⟨old, hrow, hactive⟩ := hwas (by simp) (by simp)
    have htoken : some token = w.tokens tokenHash := hall
    have hhash : token.tokenHash = tokenHash := (hI.token tokenHash token htoken.symm).1
    rw [hepoch]
    by_contra hne
    rcases (hv.lapsed id old hrow hactive).tokens tokenHash token htoken.symm hid (by rw [← hhash]; exact hne) with
      hrevoked | hexpired
    · exact hrevoked hlive
    · exact absurd hunexpired (not_lt.2 hexpired)

theorem stored_self {ev : Event AccessSig} {e : ℕ} (hI : TablesInv ctx w) (hb : g.Borne w i party) (hv : g.Tenure w i)
    (hpre : Permitted ctx party g ev.op) (hall : w.Allowed ctx ev)
    (hheld : (w.apply ctx i party ev).held i = some (id, e)) : ∃ row, (w.apply ctx i party ev).grants id = some row := by
  have hgrows : w.Grows (w.apply ctx i party ev) := grows_apply hall
  have hkept : (∃ row, w.grants id = some row) → ∃ row, (w.apply ctx i party ev).grants id = some row := by
    rintro ⟨row, hrow⟩
    obtain ⟨row', hrow', -⟩ := hgrows.grants id row hrow
    exact ⟨row', hrow'⟩
  rcases held_apply hheld with hsame | ⟨row, hop, htook, rfl, -⟩ | ⟨loaded, changed, hop, rfl, -⟩ |
    ⟨codeHash, now, code, -, hr, rfl, -⟩ | ⟨tokenHash, token, took, hk, rfl, -, -, rfl, -⟩
  · exact hkept (hv.stored id e hsame)
  · obtain ⟨op, out, took, hk⟩ := ev
    obtain rfl : op = .insertGrant row := hop
    obtain rfl : took = true := htook
    exact ⟨row, Function.update_self ..⟩
  · rw [hop] at hpre
    obtain ⟨row, hrow, -⟩ := hb.loaded loaded hpre.1
    exact hkept ⟨row, hrow⟩
  · exact hkept (hI.code codeHash code (redeemable_some hr).1).2
  · have htoken : some token = w.tokens tokenHash := hall
    obtain ⟨-, -, ⟨grant, hgrant, -⟩, -⟩ := hI.token tokenHash token htoken.symm
    exact hkept ⟨grant, hgrant⟩

theorem holds_self {ev : Event AccessSig} (hI : TablesInv ctx w) (hb : g.Borne w i party) (hv : g.Tenure w i)
    (hpre : Permitted ctx party g ev.op) (hall : w.Allowed ctx ev) :
    (gripStep party g ev).Holds (w.apply ctx i party ev) i := by
  obtain ⟨op, out, took, hk⟩ := ev
  cases op with
  | now =>
    rcases out with e | now
    · exact hv.toHolds
    · exact ⟨fun _ h => (by cases h), fun _ h => (by cases h), fun _ h => (by cases h.1), fun _ h => (by cases h.1)⟩
  | getGrant grantId =>
    rcases out with e | _ | row
    · exact hv.toHolds
    · exact ⟨hv.consent, hv.code, hv.token, fun _ h => (by cases h.1)⟩
    · have hrow : some row = w.grants grantId := hall
      refine ⟨hv.consent, hv.code, hv.token, fun row' hpassed e hheld => ?_⟩
      obtain ⟨hgrant, hactive⟩ := hpassed
      cases hgrant
      have hid : row.id = grantId := (hI.grant grantId row hrow.symm).1
      have hstatus : row.status ≠ .revoked := by
        intro hrevoked
        unfold AgentGrant.isActive GrantRow.toGrant at hactive
        rw [hrevoked] at hactive
        cases hactive
      rw [hid] at hheld
      have hchecked : (w.apply ctx i party ⟨.getGrant grantId, .ok (some row), took, hk⟩).checked i = w.epoch grantId :=
        Function.update_self ..
      rw [hchecked]
      exact (hv.current grantId row hrow.symm hstatus e hheld).symm
  | insertGrant row =>
    rcases out with e | u
    · exact holds_fresh
    · obtain rfl : took = true := hk u rfl
      refine ⟨fun id h => ?_, fun _ h => (by cases h), fun _ h => (by cases h.1), fun _ h => (by cases h.1)⟩
      cases h
      exact ⟨w.epoch row.id, Function.update_self ..⟩
  | updateGrant loaded row =>
    rcases out with e | u
    · exact holds_fresh
    · obtain rfl : took = true := hk u rfl
      show Grip.Holds (if party.consents.isSome then { g.fresh with consent := some loaded.id } else g) _ i
      have hheld : (w.apply ctx i party ⟨.updateGrant loaded row, .ok u, true, hk⟩).held =
          if party.consents.isSome then w.holding i loaded.id (w.epoch loaded.id) else w.held := rfl
      by_cases hconsents : party.consents.isSome
      · rw [if_pos hconsents] at hheld ⊢
        refine ⟨fun id h => ?_, fun _ h => (by cases h), fun _ h => (by cases h.1), fun _ h => (by cases h.1)⟩
        cases h
        rw [hheld]
        exact ⟨w.epoch loaded.id, Function.update_self ..⟩
      · rw [if_neg hconsents] at hheld ⊢
        exact holds_congr hv.toHolds (congrFun hheld i) (checked_apply (.inl (by simp))) rfl rfl rfl rfl rfl
  | takeCode codeHash now =>
    rcases out with e | taken
    · exact holds_fresh
    · obtain rfl : took = true := hk taken rfl
      refine ⟨fun _ h => (by cases h), fun row h => ?_, fun _ h => (by cases h.1), fun _ h => (by cases h.1)⟩
      have htaken : taken = (w.redeemable codeHash now).map fun row => { row with usedAt := some now } := hall
      have hcode : taken = some row := h
      obtain ⟨code, hr, rfl⟩ := Option.map_eq_some_iff.1 (htaken.symm.trans hcode)
      refine ⟨w.codeEpoch codeHash, ?_⟩
      show (w.takeCode i codeHash now).held i = some (code.grantId, w.codeEpoch codeHash)
      unfold AccessWorld.takeCode
      rw [hr]
      exact Function.update_self ..
  | getToken tokenHash =>
    rcases out with e | _ | row
    · exact hv.toHolds
    · exact ⟨fun _ h => (by cases h), fun _ h => (by cases h), fun _ h => (by cases h.1), fun _ h => (by cases h.1)⟩
    · refine ⟨fun _ h => (by cases h), fun _ h => (by cases h), fun token h => ?_, fun _ h => (by cases h.1)⟩
      obtain ⟨htoken, now, hnow, hlive, hunexpired⟩ := h
      cases htoken
      have hread : w.read i = now := hb.now now hnow
      rw [← hread] at hunexpired
      refine ⟨w.tokenEpoch row.tokenHash, ?_⟩
      show (w.readToken i row).held i = some (row.grantId, w.tokenEpoch row.tokenHash)
      unfold AccessWorld.readToken
      dsimp only
      rw [if_pos ⟨hlive, hunexpired⟩]
      exact Function.update_self ..
  | respond answer =>
    exact ⟨fun _ h => (by cases h), fun _ h => (by cases h), fun _ h => (by cases h.1), fun _ h => (by cases h.1)⟩
  | _ =>
    have hheld := @held_quiet ctx w i party ⟨_, out, took, hk⟩ (by simp) (by simp) (by simp) (by simp)
    have hchecked : (w.apply ctx i party ⟨_, out, took, hk⟩).checked i = w.checked i := checked_apply (.inl (by simp))
    rcases out with e | a
    · exact holds_congr hv.toHolds (congrFun hheld i) hchecked rfl rfl rfl rfl rfl
    · exact holds_congr hv.toHolds (congrFun hheld i) hchecked rfl rfl rfl rfl rfl

theorem tenure_kept : (accessSystem ctx).Kept (accessMonitor ctx) {} (TablesInv ctx)
    (fun w i party g => g.Borne w i party) LapsedGrants (fun w i _ g => g.Tenure w i) (RevokesForGoodAt ctx) where
  start := by
    rintro w w' i party p hI hL ⟨rfl, -⟩
    have hlapsed : ∀ {id : String} {moment : Instant}, w.Lapsed id moment → (w.enter i).Lapsed id moment :=
      fun h => ⟨h.codes, h.tokens⟩
    refine ⟨fun id row h hstatus => hlapsed (hL id row h hstatus), ⟨@holds_fresh _ i {}, fun id row h hstatus => ?_, ?_, ?_⟩, ?_⟩
    · have hread : (w.enter i).read i = w.clock := Function.update_self ..
      rw [hread]
      exact hlapsed (hL id row h hstatus)
    · intro id row h hstatus e he
      rw [show (w.enter i).held i = none from Function.update_self ..] at he
      cases he
    · intro id e he
      rw [show (w.enter i).held i = none from Function.update_self ..] at he
      cases he
    · intro j party' g hji hv
      have hread : (w.enter i).read j = w.read j := Function.update_of_ne hji _ _
      have hheld : (w.enter i).held j = w.held j := Function.update_of_ne hji _ _
      refine ⟨holds_congr hv.toHolds hheld rfl rfl rfl rfl rfl rfl, fun id row h hstatus => ?_, fun id row h hstatus e he => ?_,
        fun id e he => ?_⟩
      · rw [hread]
        exact hlapsed (hv.lapsed id row h hstatus)
      · rw [hheld] at he
        exact hv.current id row h hstatus e he
      · rw [hheld] at he
        exact hv.stored id e he
  act := by
    intro c i party ev g hI hb hL hv hpre hall hφ
    exact ⟨lapsedGrants_apply hI hL hv hpre hall hφ, holds_self hI hb hv hpre hall,
      fun id row h hstatus => lapsed_self hI hL hv hpre hall hφ h hstatus,
      fun id row h hstatus e he => current_self hI hb hv hpre hall hφ h hstatus he,
      fun id e he => stored_self hI hb hv hpre hall he⟩
  other := by
    intro c i party ev g hI hb hL hv hpre hall hφ j party' g' q hji hj _ hv'
    have hrunning : (c.threads j).isSome = true := by
      rw [hj]
      rfl
    exact tenure_other hji hrunning hI hv hv' hpre hall hφ

/-- **Revocation is final** along every run in which the clock does not go back and a revoked grant is reactivated only
when everything that descends from earlier consents has ended: whatever is accepted descends from a consent that no
revocation had followed. -/
theorem revocation_final {c : (accessSystem ctx).Config}
    {tr : List ((accessSystem ctx).Label × (accessSystem ctx).Config)} (hc : AccessStart c)
    (hs : (accessSystem ctx).Steps c tr) (hφ : Along (ActOnly (RevokesForGoodAt ctx)) c tr) : Along AcceptsLive c tr := by
  have hP := preserved_of_watched (watched_of_kept tables_watched (@tenure_kept ctx))
  have hstart : LapsedGrants c.world := by
    obtain ⟨-, clock, hw⟩ := hc
    rw [hw]
    exact fun _ _ h => (by cases h)
  refine along_of_preserved hP (fun c l c' hI hst hl => ?_) (watched_start hc.1 ⟨tablesInv_start hc, hstart⟩) hs hφ
  cases hst with
  | start _ _ => trivial
  | exit => trivial
  | @act i party op k hrun out took h hall =>
    obtain ⟨g, ⟨-, hv⟩, hpre⟩ := watched_call hI hrun
    have haccepts : ∀ grant : GrantRow, g.Passed grant → (∃ e, AccessWorld.held c.world i = some (grant.id, e)) →
        ∃ id, AccessWorld.held c.world i = some (id, AccessWorld.checked c.world i) := by
      rintro grant hpassed ⟨e, hheld⟩
      refine ⟨grant.id, ?_⟩
      rw [hv.checked grant hpassed e hheld]
      exact hheld
    cases op with
    | respond answer =>
      cases answer with
      | tokens issued =>
        obtain ⟨grant, hpassed, hredeemed⟩ := hpre
        exact haccepts grant hpassed (held_of_redeemed hv hredeemed)
      | record found =>
        rcases found with _ | record
        · trivial
        · obtain ⟨grant, token, hpassed, hgood, -, hid⟩ := hpre
          refine haccepts grant hpassed ?_
          rw [← hid]
          exact hv.token token hgood
      | _ => trivial
    | _ => trivial

end Runs

/-! ## A revocation and a new consent -/

section Concrete

instance decidableReactivates (loaded changed : GrantRow) : Decidable (w.Reactivates loaded changed) :=
  decidable_of_iff (∃ old ∈ w.grants loaded.id, old.status = .revoked ∧ (loaded.flush changed old).status ≠ .revoked)
    Iff.rfl

instance decidableAcceptsLive (c : sampleSystem.Config) (l : sampleSystem.Label) (c' : sampleSystem.Config) :
    Decidable (AcceptsLive c l c') := by
  unfold AcceptsLive
  split
  · rename_i i _ _ _ _ _
    exact decidable_of_iff (∃ held ∈ AccessWorld.held c.world i, held.2 = AccessWorld.checked c.world i)
      ⟨fun ⟨held, h, he⟩ => ⟨held.1, by rw [← he]; exact h⟩, fun ⟨id, h⟩ => ⟨_, h, rfl⟩⟩
  · rename_i i _ _ _ _ _
    exact decidable_of_iff (∃ held ∈ AccessWorld.held c.world i, held.2 = AccessWorld.checked c.world i)
      ⟨fun ⟨held, h, he⟩ => ⟨held.1, by rw [← he]; exact h⟩, fun ⟨id, h⟩ => ⟨_, h, rfl⟩⟩
  · infer_instance

def sampleHashes : List String := sampleDigests.map (·.2)

/-- `Lapsed`, of the rows stored under the digests of the sample secrets. -/
def LapsedAmong (w : AccessWorld) (grantId : String) (moment : Instant) : Prop :=
  ∀ secretHash ∈ sampleHashes,
    (∀ row ∈ w.codes secretHash, row.grantId = grantId → w.codeEpoch secretHash ≠ w.epoch grantId →
      row.usedAt ≠ none ∨ row.expiresAt ≤ moment) ∧
    ∀ row ∈ w.tokens secretHash, row.grantId = grantId → w.tokenEpoch secretHash ≠ w.epoch grantId →
      row.revokedAt ≠ none ∨ row.expiresAt ≤ moment

instance decidableLapsedAmong : Decidable (LapsedAmong w grantId moment) := by
  unfold LapsedAmong
  infer_instance

/-- The rows are stored under the digests of the sample secrets, and the calls are the first eight. -/
structure SampleBound (c : sampleSystem.Config) : Prop where
  codes : ∀ codeHash row, AccessWorld.codes c.world codeHash = some row → codeHash ∈ sampleHashes
  tokens : ∀ tokenHash row, AccessWorld.tokens c.world tokenHash = some row → tokenHash ∈ sampleHashes
  threads : ∀ j, (c.threads j).isSome = true → j < 8

/-- `RevokesForGood` of such a configuration, which the exchange keeps. -/
def EndsAmong (c : sampleSystem.Config) (w : AccessWorld) (i : ℕ) : Event AccessSig → Prop
  | ⟨.now, .ok now, _, _⟩ => w.clock ≤ now
  | ⟨.insertCode row, _, _, _⟩ => row.codeHash ∈ sampleHashes
  | ⟨.insertToken row, _, _, _⟩ => row.tokenHash ∈ sampleHashes
  | ⟨.updateGrant loaded changed, _, true, _⟩ => w.Reactivates loaded changed → LapsedAmong w loaded.id w.clock ∧
      ∀ j < 8, j = i ∨ (c.threads j).isSome = true → LapsedAmong w loaded.id (w.read j) ∧
        ∀ held ∈ w.held j, held.1 = loaded.id → held.2 = w.epoch loaded.id
  | _ => True

instance decidableEndsAmong (c : sampleSystem.Config) (w : AccessWorld) :
    ∀ ev : AccessWorld.Exchange, Decidable (EndsAmong c w i ev)
  | ⟨.now, .ok now, _, _⟩ => inferInstanceAs (Decidable (w.clock ≤ now))
  | ⟨.insertCode row, _, _, _⟩ => inferInstanceAs (Decidable (row.codeHash ∈ sampleHashes))
  | ⟨.insertToken row, _, _, _⟩ => inferInstanceAs (Decidable (row.tokenHash ∈ sampleHashes))
  | ⟨.updateGrant loaded changed, _, true, _⟩ =>
    inferInstanceAs (Decidable (w.Reactivates loaded changed → LapsedAmong w loaded.id w.clock ∧
      ∀ j < 8, j = i ∨ (c.threads j).isSome = true → LapsedAmong w loaded.id (w.read j) ∧
        ∀ held ∈ w.held j, held.1 = loaded.id → held.2 = w.epoch loaded.id))
  | ⟨.updateGrant _ _, _, false, _⟩ | ⟨.now, .error _, _, _⟩ | ⟨.uuid4, _, _, _⟩ | ⟨.tokenUrlsafe, _, _, _⟩
  | ⟨.getClient _, _, _, _⟩ | ⟨.selectGrant _ _, _, _, _⟩ | ⟨.selectOwned _ _, _, _, _⟩ | ⟨.getGrant _, _, _, _⟩
  | ⟨.insertGrant _, _, _, _⟩ | ⟨.touchGrant _ _, _, _, _⟩ | ⟨.takeCode _ _, _, _, _⟩ | ⟨.getToken _, _, _, _⟩
  | ⟨.revokeToken _ _, _, _, _⟩ | ⟨.revokeTokensForGrant _ _, _, _, _⟩ | ⟨.respond _, _, _, _⟩ => isTrue trivial

def StaysAmong (c : sampleSystem.Config) : sampleSystem.Label → sampleSystem.Config → Prop
  | .start i _, _ => i < 8
  | .act i _ ev, _ => EndsAmong c c.world i ev
  | .exit _, _ => True

instance decidableStaysAmong (c : sampleSystem.Config) : ∀ (l : sampleSystem.Label) (c' : sampleSystem.Config),
    Decidable (StaysAmong c l c')
  | .start i _, _ => inferInstanceAs (Decidable (i < 8))
  | .act _ _ ev, _ => decidableEndsAmong c c.world ev
  | .exit _, _ => isTrue trivial

theorem lapsed_of_among {c : sampleSystem.Config} (hI : SampleBound c) (h : LapsedAmong c.world grantId moment) :
    AccessWorld.Lapsed c.world grantId moment where
  codes codeHash row hrow := (h codeHash (hI.codes codeHash row hrow)).1 row hrow
  tokens tokenHash row hrow := (h tokenHash (hI.tokens tokenHash row hrow)).2 row hrow

theorem revokesForGood_of_among {c : sampleSystem.Config} {ev : Event AccessSig} (hI : SampleBound c)
    (hrunning : (c.threads i).isSome = true) (h : EndsAmong c c.world i ev) : RevokesForGood c c.world i ev := by
  unfold RevokesForGood
  split
  · exact h
  · intro hreactivates
    obtain ⟨hclock, hcalls⟩ := h hreactivates
    refine ⟨lapsed_of_among hI hclock, fun j hj => ?_⟩
    have hlt : j < 8 := hI.threads j (hj.elim (fun h => h ▸ hrunning) id)
    obtain ⟨hread, hheld⟩ := hcalls j hlt hj
    exact ⟨lapsed_of_among hI hread, fun e he => hheld _ he rfl⟩
  · trivial

theorem sampleBound_step {c c' : sampleSystem.Config} {l : sampleSystem.Label} (hI : SampleBound c)
    (hst : sampleSystem.Step c l c') (h : StaysAmong c l c') : SampleBound c' := by
  have hthreads : ∀ (i : ℕ) (t : Option (sampleSystem.Tag × Proc AccessSig Unit)), (t.isSome = true → i < 8) →
      ∀ j, (Function.update c.threads i t j).isSome = true → j < 8 := by
    intro i t ht j hj
    by_cases hji : j = i
    · subst hji
      rw [Function.update_self] at hj
      exact ht hj
    · rw [Function.update_of_ne hji] at hj
      exact hI.threads j hj
  cases hst with
  | @start i party p w hfree hspawn =>
    obtain ⟨rfl, -⟩ := hspawn
    exact ⟨hI.codes, hI.tokens, hthreads _ _ fun _ => h⟩
  | @act i party op k hrun out took hk hall =>
    have hi : i < 8 := hI.threads i (by rw [hrun]; rfl)
    refine ⟨fun codeHash row hrow => ?_, fun tokenHash row hrow => ?_, hthreads _ _ fun _ => hi⟩
    · rcases codes_apply hrow with ⟨old, hold, -⟩ | ⟨rfl, -, rfl⟩
      · exact hI.codes _ _ hold
      · exact h
    · rcases tokens_apply hrow with ⟨old, hold, -⟩ | ⟨rfl, -, rfl⟩
      · exact hI.tokens _ _ hold
      · exact h
  | exit => exact ⟨hI.codes, hI.tokens, hthreads _ _ fun h => (by cases h)⟩

/-- User 7 consents, the client redeems the code and presents its access token; the user revokes the connection, and the
client presents the token again.  The user consents anew, and the client redeems the new code and presents its token. -/
def revokedInUse : List (sampleSystem.Label × sampleSystem.Config) :=
  sampleRun (wholeCall (.approve sampleConsent) 0 9 ++
    wholeCall (.exchangeCode { clientId := "app", code := "secret-1" }) 1 8 ++
    wholeCall (.loadAccessToken "secret-2") 2 5 ++ wholeCall (.revokeConnection 7 "grant-1") 3 6 ++
    wholeCall (.loadAccessToken "secret-2") 4 3 ++ [.exit 0, .exit 1, .exit 2, .exit 3, .exit 4] ++
    wholeCall (.approve sampleConsent) 5 9 ++
    wholeCall (.exchangeCode { clientId := "app", code := "secret-4" }) 6 8 ++
    wholeCall (.loadAccessToken "secret-5") 7 5)

theorem revocation_final_inUse : Along AcceptsLive nothingStored revokedInUse := by
  have hs : sampleSystem.Steps nothingStored revokedInUse := steps_drive accessDriver _ _
  refine revocation_final start_nothingStored hs ?_
  have hbound : SampleBound nothingStored :=
    ⟨fun _ _ h => (by cases h), fun _ _ h => (by cases h), fun _ h => (by cases h)⟩
  refine along_of_step (fun c l c' hI hst h => ⟨sampleBound_step hI hst h, ?_⟩) hbound hs
    (@of_decide_eq_true _ (@decidableAlong _ _ _ decidableStaysAmong nothingStored revokedInUse) (by decide +kernel))
  cases hst with
  | act hrun _ => exact revokesForGood_of_among hI (by rw [hrun]; rfl) h
  | _ => trivial

/-- User 7 consents, revokes the connection, and consents again; the client redeems the code of the first consent. -/
def codeAfterRevocation : List (sampleSystem.Label × sampleSystem.Config) :=
  sampleRun (wholeCall (.approve sampleConsent) 0 9 ++ wholeCall (.revokeConnection 7 "grant-1") 1 6 ++
    wholeCall (.approve sampleConsent) 2 9 ++ wholeCall (.exchangeCode { clientId := "app", code := "secret-1" }) 3 8)

/-- A code from before the revocation is accepted after it. -/
theorem revived_by_consent : ¬ ∀ (ctx : AccessContext) (c : (accessSystem ctx).Config)
    (tr : List ((accessSystem ctx).Label × (accessSystem ctx).Config)), AccessStart c → (accessSystem ctx).Steps c tr →
      Along AcceptsLive c tr := by
  intro h
  have hlive := h sampleAccess nothingStored codeAfterRevocation start_nothingStored (steps_drive accessDriver _ _)
  have hrevived : ¬ Along AcceptsLive nothingStored codeAfterRevocation :=
    @of_decide_eq_true _ (@instDecidableNot _ (@decidableAlong _ _ _ decidableAcceptsLive _ _)) (by decide +kernel)
  exact hrevived hlive

end Concrete

end Transform.Access
