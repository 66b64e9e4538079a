import Transform.Access.Authority

/-!
# Access.SingleUse — codes and refresh tokens under concurrent redemption

Taking a code is one conditional UPDATE whose row count is tested, so a code is redeemed once in every run.  Rotating a
refresh token is a read, checks, and an UPDATE whose row count is not: the token is redeemed once where no two exchanges
get as far as that UPDATE (`single_use`), and twice otherwise (`refresh_redeemed_twice`).  An exchange that reads the token
after its rotation is refused (`exchangeRefresh_refused`).
-/

namespace Transform.Access

open Lib Conversions

variable {ctx : AccessContext} {w : AccessWorld} {i : ℕ} {party : AccessParty} {g : Grip} {cred : Credential}

/-! ## The invariant -/

section Redeeming

/-- The call has redeemed what it presents, and has not returned. -/
def Grip.Took (g : Grip) : Credential → Prop
  | .code _ => g.code ≠ none
  | .refresh _ => g.rotated = true

/-- Tokens are returned once for the credential, and only where it was redeemed; a redeemed code is used. -/
structure RedeemedOnce (cred : Credential) (w : AccessWorld) : Prop where
  count : w.returned.count cred ≤ 1
  redeemed : w.returned.count cred ≠ 0 → w.redeemer cred ≠ none
  used : ∀ codeHash, cred = .code codeHash → w.redeemer cred ≠ none →
    ∃ row, w.codes codeHash = some row ∧ row.usedAt ≠ none

/-- Of a call that has redeemed the credential: nobody else has, and nothing was returned for it. -/
def HoldsAlone (ctx : AccessContext) (cred : Credential) (w : AccessWorld) (i : ℕ) (party : AccessParty) (g : Grip) :
    Prop :=
  party.presents ctx = some cred → g.Took cred → w.redeemer cred = some i ∧ w.returned.count cred = 0

/-- An exchange gets past its rotation of the token only if no exchange has committed one before. -/
def RotatesFirst (ctx : AccessContext) (cred : Credential) (w : AccessWorld) (party : AccessParty) :
    Event AccessSig → Prop
  | ⟨.revokeToken tokenHash _, .ok _, _, _⟩ =>
    party.presents ctx = some (.refresh tokenHash) → cred = .refresh tokenHash → w.redeemer cred = none
  | _ => True

/-- The same of an exchange of a run. -/
def RotatesFirstAt (ctx : AccessContext) (cred : Credential) (c : (accessSystem ctx).Config) (_ : ℕ)
    (party : AccessParty) (ev : Event AccessSig) : Prop := RotatesFirst ctx cred c.world party ev

/-- Tokens were returned for the credential at most once. -/
def ReturnedOnce (cred : Credential) (_ : (accessSystem ctx).Config) (_ : (accessSystem ctx).Label)
    (c' : (accessSystem ctx).Config) : Prop := (AccessWorld.returned c'.world).count cred ≤ 1

theorem redeemer_apply {ev : Event AccessSig} (hcode : ∀ codeHash now, ev.op ≠ .takeCode codeHash now)
    (htoken : ∀ tokenHash revokedAt, ev.op ≠ .revokeToken tokenHash revokedAt) :
    (w.apply ctx i party ev).redeemer = w.redeemer := by
  unfold AccessWorld.apply
  split
  case h_8 => exact absurd rfl (hcode _ _)
  case h_11 => exact absurd rfl (htoken _ _)
  all_goals rfl

theorem returned_apply {ev : Event AccessSig} (hrespond : ∀ issued, ev.op ≠ .respond (.tokens issued)) :
    (w.apply ctx i party ev).returned = w.returned := by
  unfold AccessWorld.apply
  split
  case h_13 => exact absurd rfl (hrespond _)
  all_goals rfl

theorem took_fresh (h : g.fresh.Took cred) : g.Took cred := by
  cases cred with
  | code _ => exact absurd rfl h
  | refresh _ => exact h

/-- What a call has redeemed, but for the calls that redeem. -/
theorem took_step {ev : Event AccessSig} (hcode : ∀ codeHash now, ev.op ≠ .takeCode codeHash now)
    (htoken : ∀ tokenHash revokedAt, ev.op ≠ .revokeToken tokenHash revokedAt)
    (h : (gripStep party g ev).Took cred) : g.Took cred := by
  have hsame : ∀ g' : Grip, g'.code = g.fresh.code → g'.rotated = g.rotated → g'.Took cred → g.Took cred := by
    intro g' hcode' hrotated h
    refine took_fresh ?_
    cases cred with
    | code _ => exact fun hnone => h (hcode'.trans hnone)
    | refresh _ => exact hrotated.symm.trans h
  unfold gripStep at h
  split at h
  case h_8 =>
    split_ifs at h
    · exact hsame _ rfl rfl h
    · exact h
  case h_10 | h_11 => exact absurd rfl (hcode _ _)
  case h_13 => exact absurd rfl (htoken _ _)
  case h_14 => cases cred <;> exact absurd h (by simp [Grip.Took])
  case h_1 | h_6 | h_7 | h_9 | h_12 => exact hsame _ rfl rfl h
  all_goals exact h

theorem took_of_redeemed {grant : GrantRow} (hcred : party.presents ctx = some cred)
    (hredeemed : g.Redeemed party grant) : g.Took cred := by
  cases party with
  | exchangeCode req =>
    cases hcred
    obtain ⟨code, hcode, -⟩ := hredeemed
    intro hnone
    rw [hcode] at hnone
    cases hnone
  | exchangeRefresh req =>
    cases hcred
    exact hredeemed.1
  | _ => exact hredeemed.elim

theorem used_grows {w' : AccessWorld} (hI : RedeemedOnce cred w) (hgrows : w.Grows w') (codeHash : String)
    (hcred : cred = .code codeHash) (hr : w.redeemer cred ≠ none) :
    ∃ row, w'.codes codeHash = some row ∧ row.usedAt ≠ none := by
  obtain ⟨row, hrow, hused⟩ := hI.used codeHash hcred hr
  obtain ⟨row', hrow', usedAt, rfl, hspent⟩ := hgrows.codes _ _ hrow
  exact ⟨_, hrow', fun h => hused (hspent h)⟩

theorem redeemer_takeCode {codeHash : String} {now : Instant} : (w.takeCode i codeHash now).redeemer =
    if (w.redeemable codeHash now).isSome then Function.update w.redeemer (.code codeHash) (some i) else w.redeemer := by
  unfold AccessWorld.takeCode
  rcases w.redeemable codeHash now with _ | row <;> rfl

theorem redeemer_of_redeemable {codeHash : String} {now : Instant} {row : CodeRow}
    (hI : RedeemedOnce (.code codeHash) w) (h : w.redeemable codeHash now = some row) :
    w.redeemer (.code codeHash) = none := by
  obtain ⟨hrow, hunused, -⟩ := redeemable_some h
  by_contra hr
  obtain ⟨row', hrow', hused⟩ := hI.used codeHash rfl hr
  obtain rfl : row = row' := Option.some.inj (hrow.symm.trans hrow')
  exact hused hunused

theorem redeemedOnce_takeCode {codeHash : String} {now : Instant} (hI : RedeemedOnce cred w) :
    RedeemedOnce cred (w.takeCode i codeHash now) := by
  have hgrows : w.Grows (w.takeCode i codeHash now) := grows_takeCode
  rcases hr : w.redeemable codeHash now with _ | row
  · have hsame : (w.takeCode i codeHash now).redeemer = w.redeemer := by
      rw [redeemer_takeCode, hr]
      rfl
    refine ⟨hI.count, fun h => ?_, fun codeHash' hcred h => ?_⟩
    · rw [hsame]
      exact hI.redeemed h
    · rw [hsame] at h
      exact used_grows hI hgrows codeHash' hcred h
  · have hset : (w.takeCode i codeHash now).redeemer = Function.update w.redeemer (.code codeHash) (some i) := by
      rw [redeemer_takeCode, hr]
      rfl
    refine ⟨hI.count, fun h => ?_, fun codeHash' hcred h => ?_⟩
    · rw [hset]
      by_cases hc : cred = .code codeHash
      · rw [hc, Function.update_self]
        exact Option.some_ne_none i
      · rw [Function.update_of_ne hc]
        exact hI.redeemed h
    · by_cases hc : cred = .code codeHash
      · obtain rfl : codeHash' = codeHash := Credential.code.inj (hcred.symm.trans hc)
        refine ⟨{ row with usedAt := some now }, ?_, fun hnone => (by cases hnone)⟩
        unfold AccessWorld.takeCode
        rw [hr]
        exact Function.update_self ..
      · rw [hset, Function.update_of_ne hc] at h
        exact used_grows hI hgrows codeHash' hcred h

theorem redeemedOnce_revokeToken {tokenHash : String} {revokedAt : Instant} (hI : RedeemedOnce cred w) :
    RedeemedOnce cred (w.revokeToken ctx i party tokenHash revokedAt) := by
  have hgrows : w.Grows (w.revokeToken ctx i party tokenHash revokedAt) := grows_revokeToken
  have hkept : ∀ h : w.redeemer cred ≠ none, (w.revokeToken ctx i party tokenHash revokedAt).redeemer cred ≠ none := by
    intro h
    unfold AccessWorld.revokeToken
    dsimp only
    split_ifs with hfirst
    · by_cases hc : cred = .refresh tokenHash
      · rw [hc, Function.update_self]
        exact Option.some_ne_none i
      · rw [Function.update_of_ne hc]
        exact h
    · exact h
  refine ⟨hI.count, fun h => hkept (hI.redeemed h), fun codeHash hcred h => ?_⟩
  refine used_grows hI hgrows codeHash hcred fun hnone => h ?_
  unfold AccessWorld.revokeToken
  dsimp only
  split_ifs
  · rw [Function.update_of_ne (by rw [hcred]; exact Credential.noConfusion), hnone]
  · exact hnone

theorem redeemedOnce_apply {ev : Event AccessSig} (hI : RedeemedOnce cred w) (hv : HoldsAlone ctx cred w i party g)
    (hpre : Permitted ctx party g ev.op) (hall : w.Allowed ctx ev) : RedeemedOnce cred (w.apply ctx i party ev) := by
  have hgrows : w.Grows (w.apply ctx i party ev) := grows_apply hall
  obtain ⟨op, out, took, hk⟩ := ev
  have hquiet : (∀ codeHash now, op ≠ .takeCode codeHash now) → (∀ tokenHash at', op ≠ .revokeToken tokenHash at') →
      (∀ issued, op ≠ .respond (.tokens issued)) → RedeemedOnce cred (w.apply ctx i party ⟨op, out, took, hk⟩) := by
    intro h1 h2 h3
    have hredeemer := @redeemer_apply ctx w i party ⟨op, out, took, hk⟩ h1 h2
    have hreturned := @returned_apply ctx w i party ⟨op, out, took, hk⟩ h3
    refine ⟨?_, fun h => ?_, fun codeHash hcred h => ?_⟩
    · rw [hreturned]
      exact hI.count
    · rw [hreturned] at h
      rw [hredeemer]
      exact hI.redeemed h
    · rw [hredeemer] at h
      exact used_grows hI hgrows codeHash hcred h
  cases op with
  | takeCode codeHash now =>
    cases took with
    | false => exact hI
    | true => exact redeemedOnce_takeCode hI
  | revokeToken tokenHash revokedAt =>
    cases took with
    | false => exact hI
    | true => exact redeemedOnce_revokeToken hI
  | respond answer =>
    cases answer with
    | tokens issued =>
      obtain ⟨grant, -, hredeemed⟩ := hpre
      have hreturned : (w.apply ctx i party ⟨.respond (.tokens issued), out, took, hk⟩).returned =
          (party.presents ctx).toList ++ w.returned := rfl
      by_cases hcred : party.presents ctx = some cred
      · obtain ⟨hself, hnone⟩ := hv hcred (took_of_redeemed hcred hredeemed)
        refine ⟨?_, fun _ => ?_, fun codeHash hc h => used_grows hI hgrows codeHash hc h⟩
        · rw [hreturned, hcred, List.count_append, hnone]
          simp
        · show w.redeemer cred ≠ none
          rw [hself]
          exact Option.some_ne_none i
      · have hcount : ((party.presents ctx).toList ++ w.returned).count cred = w.returned.count cred := by
          rw [List.count_append, List.count_eq_zero.2, Nat.zero_add]
          intro hmem
          exact hcred (Option.mem_toList.1 hmem)
        refine ⟨?_, fun h => ?_, fun codeHash hc h => used_grows hI hgrows codeHash hc h⟩
        · rw [hreturned, hcount]
          exact hI.count
        · rw [hreturned, hcount] at h
          exact hI.redeemed h
    | _ => exact hquiet (by simp) (by simp) (by simp)
  | _ => exact hquiet (by simp) (by simp) (by simp)

theorem holdsAlone_apply {ev : Event AccessSig} (hI : RedeemedOnce cred w) (hv : HoldsAlone ctx cred w i party g)
    (hpre : Permitted ctx party g ev.op) (hall : w.Allowed ctx ev) (hφ : RotatesFirst ctx cred w party ev) :
    HoldsAlone ctx cred (w.apply ctx i party ev) i party (gripStep party g ev) := by
  obtain ⟨op, out, took, hk⟩ := ev
  have hfree : w.redeemer cred = none → w.returned.count cred = 0 := by
    intro hnone
    by_contra hcount
    exact hI.redeemed hcount hnone
  cases op with
  | takeCode codeHash now =>
    obtain ⟨hpresents, -⟩ := hpre
    rcases out with e | taken
    · intro hcred htook
      rw [hpresents] at hcred
      cases hcred
      exact absurd rfl htook
    · obtain rfl : took = true := hk taken rfl
      intro hcred htook
      rw [hpresents] at hcred
      cases hcred
      have htaken : taken = (w.redeemable codeHash now).map fun row => { row with usedAt := some now } := hall
      rcases hr : w.redeemable codeHash now with _ | row
      · rw [hr] at htaken
        exact absurd htaken htook
      · have hnone := redeemer_of_redeemable hI hr
        refine ⟨?_, hfree hnone⟩
        show (w.takeCode i codeHash now).redeemer (.code codeHash) = some i
        rw [redeemer_takeCode, hr]
        exact Function.update_self ..
  | revokeToken tokenHash revokedAt =>
    have hkept : ∀ u : AccessWorld, u = w.revokeToken ctx i party tokenHash revokedAt → w.redeemer cred = some i →
        u.redeemer cred = some i := by
      rintro u rfl hself
      unfold AccessWorld.revokeToken
      dsimp only
      split_ifs with hset
      · by_cases hc : cred = .refresh tokenHash
        · rw [hc, Function.update_self]
        · rw [Function.update_of_ne hc, hself]
      · exact hself
    rcases out with e | u
    · intro hcred htook
      obtain ⟨hself, hcount⟩ := hv hcred htook
      cases took with
      | false => exact ⟨hself, hcount⟩
      | true => exact ⟨hkept _ rfl hself, hcount⟩
    · obtain rfl : took = true := hk u rfl
      intro hcred htook
      cases cred with
      | code codeHash =>
        obtain ⟨hself, hcount⟩ := hv hcred htook
        exact ⟨hkept _ rfl hself, hcount⟩
      | refresh tokenHash' =>
        rcases hpre with hpresents | hpresents
        · rw [hpresents] at hcred
          cases hcred
          have hnone : w.redeemer (.refresh tokenHash) = none := hφ hpresents rfl
          refine ⟨?_, hfree hnone⟩
          show (w.revokeToken ctx i party tokenHash revokedAt).redeemer (.refresh tokenHash) = some i
          unfold AccessWorld.revokeToken
          dsimp only
          rw [if_pos ⟨hpresents, hnone⟩]
          exact Function.update_self ..
        · rw [hpresents] at hcred
          cases hcred
  | respond answer =>
    intro _ htook
    cases cred <;> exact absurd htook (by simp [gripStep, Grip.Took])
  | _ =>
    intro hcred htook
    obtain ⟨hself, hcount⟩ := hv hcred (took_step (by simp) (by simp) htook)
    refine ⟨?_, ?_⟩
    · rw [redeemer_apply (by simp) (by simp), hself]
    · rw [returned_apply (by simp), hcount]

/-- It stays so while it is another's turn. -/
theorem holdsAlone_other {ev : Event AccessSig} {j : ℕ} {party' : AccessParty} {g' : Grip} (hji : j ≠ i)
    (hI : RedeemedOnce cred w) (hv : HoldsAlone ctx cred w i party g) (hv' : HoldsAlone ctx cred w j party' g')
    (hpre : Permitted ctx party g ev.op) : HoldsAlone ctx cred (w.apply ctx i party ev) j party' g' := by
  intro hcred htook
  obtain ⟨hother, hcount⟩ := hv' hcred htook
  obtain ⟨op, out, took, hk⟩ := ev
  cases op with
  | takeCode codeHash now =>
    cases took with
    | false => exact ⟨hother, hcount⟩
    | true =>
      refine ⟨?_, hcount⟩
      show (w.takeCode i codeHash now).redeemer cred = some j
      rw [redeemer_takeCode]
      split_ifs with hsome
      · by_cases hc : cred = .code codeHash
        · subst hc
          obtain ⟨row, hrow⟩ := Option.isSome_iff_exists.1 hsome
          rw [redeemer_of_redeemable hI hrow] at hother
          cases hother
        · rw [Function.update_of_ne hc, hother]
      · exact hother
  | revokeToken tokenHash revokedAt =>
    cases took with
    | false => exact ⟨hother, hcount⟩
    | true =>
      refine ⟨?_, hcount⟩
      show (w.revokeToken ctx i party tokenHash revokedAt).redeemer cred = some j
      unfold AccessWorld.revokeToken
      dsimp only
      split_ifs with hset
      · by_cases hc : cred = .refresh tokenHash
        · subst hc
          rw [hset.2] at hother
          cases hother
        · rw [Function.update_of_ne hc, hother]
      · exact hother
  | respond answer =>
    cases answer with
    | tokens issued =>
      refine ⟨hother, ?_⟩
      show ((party.presents ctx).toList ++ w.returned).count cred = 0
      rw [List.count_append, hcount, Nat.add_zero, List.count_eq_zero]
      intro hmem
      have hpresents : party.presents ctx = some cred := Option.mem_toList.1 hmem
      obtain ⟨grant, -, hredeemed⟩ := hpre
      obtain ⟨hself, -⟩ := hv hpresents (took_of_redeemed hpresents hredeemed)
      rw [hself] at hother
      exact hji (Option.some.inj hother).symm
    | _ => exact ⟨hother, hcount⟩
  | _ =>
    refine ⟨?_, ?_⟩
    · rw [redeemer_apply (by simp) (by simp), hother]
    · rw [returned_apply (by simp), hcount]

theorem redeeming_kept : (accessSystem ctx).Kept (accessMonitor ctx) {} (TablesInv ctx)
    (fun w i party g => g.Borne w i party) (RedeemedOnce cred) (HoldsAlone ctx cred)
    (RotatesFirstAt ctx cred) where
  start := by
    rintro w w' i party p - hI ⟨rfl, -⟩
    refine ⟨⟨hI.count, hI.redeemed, hI.used⟩, fun _ htook => ?_, fun j party' g hji hv => hv⟩
    cases cred <;> exact absurd htook (by simp [Grip.Took])
  act := by
    intro c i party ev g _ _ hI hv hpre hall hφ
    exact ⟨redeemedOnce_apply hI hv hpre hall, holdsAlone_apply hI hv hpre hall hφ⟩
  other := by
    intro c i party ev g _ _ hI hv hpre hall _ j party' g' q hji _ _ hv'
    exact holdsAlone_other hji hI hv hv' hpre

/-- **Single use**: in any interleaving, tokens are returned at most once for a code; and at most once for a refresh
token where no exchange gets past its rotation after another has committed one. -/
theorem single_use {c : (accessSystem ctx).Config} {tr : List ((accessSystem ctx).Label × (accessSystem ctx).Config)}
    (hc : AccessStart c) (hs : (accessSystem ctx).Steps c tr) (cred : Credential)
    (hφ : Along (ActOnly (RotatesFirstAt ctx cred)) c tr) : Along (ReturnedOnce cred) c tr := by
  have hP := preserved_of_watched (watched_of_kept tables_watched (@redeeming_kept ctx cred))
  have hstart : RedeemedOnce cred c.world := by
    obtain ⟨-, clock, hw⟩ := hc
    rw [hw]
    exact ⟨Nat.zero_le _, fun h => absurd rfl h, fun _ _ h => absurd rfl h⟩
  refine along_of_preserved hP (fun c l c' hI hst hl => ?_) (watched_start hc.1 ⟨tablesInv_start hc, hstart⟩) hs hφ
  exact (inv_step hP hI hst hl).1.2.count

end Redeeming

/-! ## After a rotation -/

section Rotated

variable {tokenHash : String} {moment : Instant}

def AccessWorld.Rotated (w : AccessWorld) (tokenHash : String) : Prop :=
  ∃ row, w.tokens tokenHash = some row ∧ row.revokedAt ≠ none

theorem rotated_revokeToken {row : TokenRow} (h : w.tokens tokenHash = some row) :
    (w.revokeToken ctx i party tokenHash moment).Rotated tokenHash := by
  refine ⟨AccessWorld.revoked moment row, ?_, ?_⟩
  · show Function.update w.tokens tokenHash _ tokenHash = _
    rw [Function.update_self, h]
    rfl
  · unfold AccessWorld.revoked
    split_ifs with hnone
    · exact Option.some_ne_none moment
    · exact hnone

theorem rotated_of_grows {w' : AccessWorld} (hgrows : w.Grows w') (h : w.Rotated tokenHash) : w'.Rotated tokenHash := by
  obtain ⟨row, hrow, hrevoked⟩ := h
  obtain ⟨row', hrow', revokedAt, rfl, hended⟩ := hgrows.tokens _ _ hrow
  exact ⟨_, hrow', fun hnone => hrevoked (hended hnone)⟩

/-- A rotated token stays so, whatever runs. -/
theorem rotated_along {c : (accessSystem ctx).Config} {tr : List ((accessSystem ctx).Label × (accessSystem ctx).Config)}
    (hs : (accessSystem ctx).Steps c tr) (h : AccessWorld.Rotated c.world tokenHash) :
    Along (fun _ _ c' => AccessWorld.Rotated c'.world tokenHash) c tr := by
  refine along_of_step (I := fun c => AccessWorld.Rotated c.world tokenHash) (φ := fun _ _ _ => True)
    (fun c l c' hI hst _ => ?_) h hs (along_mono (fun _ _ _ _ => trivial) hs)
  have hkept : AccessWorld.Rotated c'.world tokenHash := by
    cases hst with
    | start _ hspawn =>
      rw [hspawn.1]
      exact hI
    | act _ hall => exact rotated_of_grows (grows_apply hall) hI
    | exit => exact hI
  exact ⟨hkept, hkept⟩

theorem rotateToken_of_revoked {req : RefreshRequest} {record : TokenRecord} {now : Instant}
    (h : record.revokedAt ≠ none) :
    ∃ description, rotateToken ctx req record now = .throw (invalidGrant description) := by
  have hexpired : ensure (record.revokedAt = none ∧ now < record.expiresAt)
      (invalidGrant "The refresh token is expired or revoked.") =
      .error (invalidGrant "The refresh token is expired or revoked.") := if_neg (by simp [h])
  by_cases hkind : record.kind = .refresh
  · refine ⟨"The refresh token is expired or revoked.", ?_⟩
    unfold rotateToken
    rw [hexpired, ensure, if_pos (decide_eq_true hkind)]
    rfl
  · refine ⟨"The refresh token is invalid.", ?_⟩
    unfold rotateToken
    rw [ensure, if_neg (by simp [hkind])]
    rfl

/-- **A call that reads a refresh token after its rotation is refused**, and rotates nothing. -/
theorem exchangeRefresh_refused {req : RefreshRequest} {tr : List (Event AccessSig)} {r : Except AccessError IssuedTokens}
    (hr : Run (exchangeRefresh ctx req).run tr r)
    (hread : ∀ found took h, (⟨.getToken (ctx.hashSecret req.refreshToken), .ok found, took, h⟩ : Event AccessSig) ∈ tr →
      ∃ w : AccessWorld, w.Rotated (ctx.hashSecret req.refreshToken) ∧ found = w.tokens (ctx.hashSecret req.refreshToken)) :
    (∃ e, r = .error e) ∧ ∀ ev ∈ tr, ∀ tokenHash revokedAt, ev.op ≠ .revokeToken tokenHash revokedAt := by
  obtain ⟨out, took, hk, tr', rfl, hr⟩ := hr
  rcases out with e | now
  · obtain ⟨rfl, rfl⟩ := hr
    exact ⟨⟨e, rfl⟩, by simp⟩
  obtain ⟨out, took', hk', tr', rfl, hr⟩ := hr
  rcases out with e | found
  · obtain ⟨rfl, rfl⟩ := hr
    exact ⟨⟨e, rfl⟩, by simp⟩
  obtain ⟨w, ⟨row, hrow, hrevoked⟩, rfl⟩ := hread found took' hk' (by simp)
  obtain ⟨description, hthrow⟩ := @rotateToken_of_revoked ctx req row.toToken now hrevoked
  replace hr : Run (rotateToken ctx req row.toToken now).run tr' r := by
    rw [hrow] at hr
    exact hr
  rw [hthrow] at hr
  obtain ⟨rfl, rfl⟩ := hr
  exact ⟨⟨_, rfl⟩, by simp⟩

end Rotated

/-! ## Runs -/

section Concrete

/-- The refresh token of `consentAndRedeem`. -/
def refreshed : Credential := .refresh (sampleAccess.hashSecret "secret-3")

def refreshParty : AccessParty := .exchangeRefresh { clientId := "app", refreshToken := "secret-3" }

/-- User 7 consents, the client redeems the code, and presents its refresh token twice. -/
def refreshTwice (schedule : List sampleSystem.Move) : List (sampleSystem.Label × sampleSystem.Config) :=
  sampleRun (wholeCall (.approve sampleConsent) 0 9 ++
    wholeCall (.exchangeCode { clientId := "app", code := "secret-1" }) 1 8 ++ schedule)

/-- One exchange after the other. -/
def refreshInTurn : List (sampleSystem.Label × sampleSystem.Config) :=
  refreshTwice (wholeCall refreshParty 2 9 ++ wholeCall refreshParty 3 2)

/-- Both exchanges read the token before either rotates it. -/
def refreshAtOnce : List (sampleSystem.Label × sampleSystem.Config) :=
  refreshTwice (wholeCall refreshParty 2 3 ++ wholeCall refreshParty 3 3 ++ accessTurns 2 6 ++ accessTurns 3 6)

instance decidableRotatesFirstAt (c : sampleSystem.Config) (i : ℕ) (party : AccessParty) (ev : AccessWorld.Exchange) :
    Decidable (RotatesFirstAt sampleAccess refreshed c i party ev) := by
  unfold RotatesFirstAt RotatesFirst
  split <;> infer_instance

instance decidableReturnedOnce (c : sampleSystem.Config) (l : sampleSystem.Label) (c' : sampleSystem.Config) :
    Decidable (ReturnedOnce refreshed c l c') := by
  unfold ReturnedOnce
  infer_instance

theorem single_use_inTurn : Along (ReturnedOnce refreshed) nothingStored refreshInTurn := by
  refine single_use start_nothingStored (steps_drive accessDriver _ _) refreshed ?_
  exact @of_decide_eq_true _ (@decidableAlong _ _ _ (@decidableActOnly _ _ _ decidableRotatesFirstAt) _ _)
    (by decide +kernel)

/-- Two exchanges that read a refresh token before either rotates it both return tokens. -/
theorem refresh_redeemed_twice : ¬ ∀ (ctx : AccessContext) (c : (accessSystem ctx).Config)
    (tr : List ((accessSystem ctx).Label × (accessSystem ctx).Config)), AccessStart c → (accessSystem ctx).Steps c tr →
      ∀ cred, Along (ReturnedOnce cred) c tr := by
  intro h
  have honce := h sampleAccess nothingStored refreshAtOnce start_nothingStored (steps_drive accessDriver _ _) refreshed
  have htwice : ¬ Along (ReturnedOnce refreshed) nothingStored refreshAtOnce :=
    @of_decide_eq_true _ (@instDecidableNot _ (@decidableAlong _ _ _ decidableReturnedOnce _ _)) (by decide +kernel)
  exact htwice honce

end Concrete

end Transform.Access
