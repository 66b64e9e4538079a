import Transform.Access.System

/-!
# Access.Tables — what every statement keeps of the tables

Rows stay: a grant keeps its user and client, a code and a token all but the mark that ends them (`Grows`).  Every code
and token is of a stored grant, and every token carries the subject of its grant, this server's resource, and the hash of
a secret that was issued as it (`TablesInv`).
-/

namespace Transform.Access

open Lib Conversions

variable {ctx : AccessContext} {w w' : AccessWorld} {i : ℕ} {party : AccessParty} {g : Grip}

/-! ## Rows stay -/

section Growth

/-- A code but for its use. -/
def CodeRow.Spent (row row' : CodeRow) : Prop :=
  ∃ usedAt, row' = { row with usedAt := usedAt } ∧ (usedAt = none → row.usedAt = none)

/-- A token but for its revocation. -/
def TokenRow.Ended (row row' : TokenRow) : Prop :=
  ∃ revokedAt, row' = { row with revokedAt := revokedAt } ∧ (revokedAt = none → row.revokedAt = none)

theorem spent_refl (row : CodeRow) : row.Spent row := ⟨row.usedAt, rfl, id⟩

theorem ended_refl (row : TokenRow) : row.Ended row := ⟨row.revokedAt, rfl, id⟩

theorem ended_revoked (row : TokenRow) (revokedAt : Instant) : row.Ended (AccessWorld.revoked revokedAt row) := by
  unfold AccessWorld.revoked
  split_ifs with h
  · exact ⟨some revokedAt, rfl, fun hnone => (by cases hnone)⟩
  · exact ended_refl row

/-- No row is lost, and none changes its owner. -/
structure AccessWorld.Grows (w w' : AccessWorld) : Prop where
  grants : ∀ id row, w.grants id = some row →
    ∃ row', w'.grants id = some row' ∧ row'.userId = row.userId ∧ row'.clientId = row.clientId
  index : ∀ userId clientId id, w.index userId clientId = some id → w'.index userId clientId = some id
  codes : ∀ codeHash row, w.codes codeHash = some row → ∃ row', w'.codes codeHash = some row' ∧ row.Spent row'
  tokens : ∀ tokenHash row, w.tokens tokenHash = some row → ∃ row', w'.tokens tokenHash = some row' ∧ row.Ended row'
  issued : w.issued ⊆ w'.issued

theorem grows_of_eq (hgrants : w'.grants = w.grants) (hindex : w'.index = w.index) (hcodes : w'.codes = w.codes)
    (htokens : w'.tokens = w.tokens) (hissued : w'.issued = w.issued) : w.Grows w' where
  grants id row h := ⟨row, by rw [hgrants, h], rfl, rfl⟩
  index _ _ _ h := by rw [hindex, h]
  codes codeHash row h := ⟨row, by rw [hcodes, h], spent_refl row⟩
  tokens tokenHash row h := ⟨row, by rw [htokens, h], ended_refl row⟩
  issued := by rw [hissued]; exact fun _ h => h

theorem grows_of_grants (hindex : w'.index = w.index) (hcodes : w'.codes = w.codes) (htokens : w'.tokens = w.tokens)
    (hissued : w'.issued = w.issued)
    (hgrants : ∀ id row, w.grants id = some row →
      ∃ row', w'.grants id = some row' ∧ row'.userId = row.userId ∧ row'.clientId = row.clientId) : w.Grows w' where
  grants := hgrants
  index _ _ _ h := by rw [hindex, h]
  codes codeHash row h := ⟨row, by rw [hcodes, h], spent_refl row⟩
  tokens tokenHash row h := ⟨row, by rw [htokens, h], ended_refl row⟩
  issued := by rw [hissued]; exact fun _ h => h

/-- Tokens replaced by ones that differ in their revocation. -/
theorem grows_of_tokens (hgrants : w'.grants = w.grants) (hindex : w'.index = w.index) (hcodes : w'.codes = w.codes)
    (hissued : w.issued ⊆ w'.issued)
    (htokens : ∀ tokenHash row, w.tokens tokenHash = some row → ∃ row', w'.tokens tokenHash = some row' ∧ row.Ended row') :
    w.Grows w' where
  grants id row h := ⟨row, by rw [hgrants, h], rfl, rfl⟩
  index _ _ _ h := by rw [hindex, h]
  codes codeHash row h := ⟨row, by rw [hcodes, h], spent_refl row⟩
  tokens := htokens
  issued := hissued

/-- Codes replaced by ones that differ in their use. -/
theorem grows_of_codes (hgrants : w'.grants = w.grants) (hindex : w'.index = w.index) (htokens : w'.tokens = w.tokens)
    (hissued : w'.issued = w.issued)
    (hcodes : ∀ codeHash row, w.codes codeHash = some row → ∃ row', w'.codes codeHash = some row' ∧ row.Spent row') :
    w.Grows w' where
  grants id row h := ⟨row, by rw [hgrants, h], rfl, rfl⟩
  index _ _ _ h := by rw [hindex, h]
  codes := hcodes
  tokens tokenHash row h := ⟨row, by rw [htokens, h], ended_refl row⟩
  issued := by rw [hissued]; exact fun _ h => h

variable {row loaded : GrantRow} {code : CodeRow} {token : TokenRow} {grantId codeHash codeHash' tokenHash : String}
  {moment : Instant}

theorem grows_insertGrant (hid : w.grants row.id = none) (hindex : w.index row.userId row.clientId = none) :
    w.Grows (w.insertGrant i row) where
  grants id old h := by
    have hne : id ≠ row.id := by
      rintro rfl
      rw [hid] at h
      cases h
    exact ⟨old, (Function.update_of_ne hne _ _).trans h, rfl, rfl⟩
  index userId clientId id h := by
    show Function.update w.index row.userId (Function.update (w.index row.userId) row.clientId (some row.id)) userId
      clientId = some id
    by_cases hu : userId = row.userId
    · subst hu
      have hne : clientId ≠ row.clientId := by
        rintro rfl
        rw [hindex] at h
        cases h
      rw [Function.update_self, Function.update_of_ne hne, h]
    · rw [Function.update_of_ne hu, h]
  codes _ old h := ⟨old, h, spent_refl old⟩
  tokens _ old h := ⟨old, h, ended_refl old⟩
  issued := fun _ h => h

theorem update_grants {f : GrantRow → GrantRow} (hf : ∀ row, (f row).userId = row.userId ∧ (f row).clientId = row.clientId)
    (id : String) (old : GrantRow) (h : w.grants id = some old) :
    ∃ row', Function.update w.grants grantId ((w.grants grantId).map f) id = some row' ∧ row'.userId = old.userId ∧
      row'.clientId = old.clientId := by
  by_cases hid : id = grantId
  · subst hid
    exact ⟨f old, by rw [Function.update_self, h]; rfl, (hf old).1, (hf old).2⟩
  · exact ⟨old, by rw [Function.update_of_ne hid, h], rfl, rfl⟩

theorem grows_updateGrant : w.Grows (w.updateGrant i party loaded row) :=
  grows_of_grants rfl rfl rfl rfl (update_grants fun _ => ⟨rfl, rfl⟩)

theorem grows_touchGrant : w.Grows (w.touchGrant grantId moment) := by
  refine grows_of_grants rfl rfl rfl rfl (update_grants fun old => ?_)
  split_ifs
  · exact ⟨rfl, rfl⟩
  · exact ⟨rfl, rfl⟩

theorem grows_insertCode (hnew : w.codes code.codeHash = none) : w.Grows (w.insertCode i code) := by
  refine grows_of_codes rfl rfl rfl rfl fun codeHash old h => ⟨old, ?_, spent_refl old⟩
  have hne : codeHash ≠ code.codeHash := by
    rintro rfl
    rw [hnew] at h
    cases h
  exact (Function.update_of_ne hne _ _).trans h

theorem redeemable_some (h : w.redeemable codeHash moment = some code) :
    w.codes codeHash = some code ∧ code.Redeemable moment := by
  obtain ⟨hcode, hredeemable⟩ := Option.filter_eq_some_iff.1 h
  exact ⟨hcode, of_decide_eq_true hredeemable⟩

theorem codes_takeCode {old : CodeRow} (h : w.codes codeHash' = some old) :
    ∃ row', (w.takeCode i codeHash moment).codes codeHash' = some row' ∧ old.Spent row' := by
  unfold AccessWorld.takeCode
  rcases htaken : w.redeemable codeHash moment with _ | taken
  · exact ⟨old, h, spent_refl old⟩
  · show ∃ row', Function.update w.codes codeHash (some { taken with usedAt := some moment }) codeHash' = some row' ∧
      old.Spent row'
    by_cases hc : codeHash' = codeHash
    · subst hc
      rw [(redeemable_some htaken).1] at h
      cases h
      exact ⟨_, Function.update_self .., some moment, rfl, fun hnone => (by cases hnone)⟩
    · exact ⟨old, (Function.update_of_ne hc _ _).trans h, spent_refl old⟩

theorem grows_takeCode : w.Grows (w.takeCode i codeHash moment) :=
  grows_of_codes rfl rfl rfl rfl fun _ _ h => codes_takeCode h

theorem grows_insertToken (hnew : w.tokens token.tokenHash = none) : w.Grows (w.insertToken i token) := by
  refine grows_of_tokens rfl rfl rfl (fun _ h => List.mem_cons_of_mem _ h) fun tokenHash old h => ⟨old, ?_, ended_refl old⟩
  have hne : tokenHash ≠ token.tokenHash := by
    rintro rfl
    rw [hnew] at h
    cases h
  exact (Function.update_of_ne hne _ _).trans h

theorem grows_readToken : w.Grows (w.readToken i token) := grows_of_eq rfl rfl rfl rfl rfl

theorem grows_revokeToken : w.Grows (w.revokeToken ctx i party tokenHash moment) := by
  refine grows_of_tokens rfl rfl rfl (fun _ h => h) fun tokenHash' old h => ?_
  show ∃ row', Function.update w.tokens tokenHash ((w.tokens tokenHash).map (AccessWorld.revoked moment)) tokenHash' =
    some row' ∧ old.Ended row'
  by_cases ht : tokenHash' = tokenHash
  · subst ht
    exact ⟨_, by rw [Function.update_self, h]; rfl, ended_revoked old moment⟩
  · exact ⟨old, (Function.update_of_ne ht _ _).trans h, ended_refl old⟩

theorem grows_revokeTokensForGrant : w.Grows (w.revokeTokensForGrant grantId moment) := by
  refine grows_of_tokens rfl rfl rfl (fun _ h => h) fun tokenHash old h => ?_
  refine ⟨if old.grantId = grantId then AccessWorld.revoked moment old else old, ?_, ?_⟩
  · show (w.tokens tokenHash).map _ = _
    rw [h]
    rfl
  · split_ifs
    · exact ended_revoked old moment
    · exact ended_refl old

/-- **Rows stay**, whatever a call does. -/
theorem grows_apply {ev : Event AccessSig} (hall : w.Allowed ctx ev) : w.Grows (w.apply ctx i party ev) := by
  obtain ⟨op, out, took, hk⟩ := ev
  cases op with
  | insertGrant row =>
    cases took with
    | false => exact grows_of_eq rfl rfl rfl rfl rfl
    | true => exact grows_insertGrant (hall rfl).1 (hall rfl).2
  | updateGrant loaded row =>
    cases took with
    | false => exact grows_of_eq rfl rfl rfl rfl rfl
    | true => exact grows_updateGrant
  | touchGrant grantId usedAt =>
    cases took with
    | false => exact grows_of_eq rfl rfl rfl rfl rfl
    | true => exact grows_touchGrant
  | insertCode row =>
    cases took with
    | false => exact grows_of_eq rfl rfl rfl rfl rfl
    | true => exact grows_insertCode (hall rfl)
  | takeCode codeHash now =>
    cases took with
    | false => exact grows_of_eq rfl rfl rfl rfl rfl
    | true => exact grows_takeCode
  | insertToken row =>
    cases took with
    | false => exact grows_of_eq rfl rfl rfl rfl rfl
    | true => exact grows_insertToken (hall rfl)
  | getToken tokenHash =>
    rcases out with e | _ | row
    · exact grows_of_eq rfl rfl rfl rfl rfl
    · exact grows_of_eq rfl rfl rfl rfl rfl
    · exact grows_readToken
  | revokeToken tokenHash revokedAt =>
    cases took with
    | false => exact grows_of_eq rfl rfl rfl rfl rfl
    | true => exact grows_revokeToken
  | revokeTokensForGrant grantId revokedAt =>
    cases took with
    | false => exact grows_of_eq rfl rfl rfl rfl rfl
    | true => exact grows_revokeTokensForGrant
  | now =>
    rcases out with e | now
    · exact grows_of_eq rfl rfl rfl rfl rfl
    · exact grows_of_eq rfl rfl rfl rfl rfl
  | tokenUrlsafe =>
    rcases out with e | secret
    · exact grows_of_eq rfl rfl rfl rfl rfl
    · exact grows_of_eq rfl rfl rfl rfl rfl
  | getGrant grantId =>
    rcases out with e | _ | row
    · exact grows_of_eq rfl rfl rfl rfl rfl
    · exact grows_of_eq rfl rfl rfl rfl rfl
    · exact grows_of_eq rfl rfl rfl rfl rfl
  | respond answer =>
    cases answer with
    | tokens issued => exact grows_of_eq rfl rfl rfl rfl rfl
    | _ => exact grows_of_eq rfl rfl rfl rfl rfl
  | _ => exact grows_of_eq rfl rfl rfl rfl rfl

end Growth

/-! ## Where rows come from -/

section Origins

theorem ended_mapped {f : TokenRow → TokenRow} (hf : ∀ row : TokenRow, row.Ended (f row)) {o : Option TokenRow} {row : TokenRow}
    (h : o.map f = some row) : ∃ old, o = some old ∧ old.Ended row := by
  obtain ⟨old, hold, rfl⟩ := Option.map_eq_some_iff.1 h
  exact ⟨old, hold, hf old⟩

theorem codes_apply {ev : Event AccessSig} {codeHash : String} {row : CodeRow}
    (h : (w.apply ctx i party ev).codes codeHash = some row) :
    (∃ old, w.codes codeHash = some old ∧ old.Spent row) ∨ (ev.op = .insertCode row ∧ ev.took = true ∧ row.codeHash = codeHash) := by
  have hsame : w.codes codeHash = some row →
      (∃ old, w.codes codeHash = some old ∧ old.Spent row) ∨ (ev.op = .insertCode row ∧ ev.took = true ∧ row.codeHash = codeHash) :=
    fun h => .inl ⟨row, h, spent_refl row⟩
  unfold AccessWorld.apply at h
  split at h
  · exact hsame h
  · exact hsame h
  · exact hsame h
  · exact hsame h
  · exact hsame h
  · exact hsame h
  · rename_i inserted _ _
    replace h : Function.update w.codes inserted.codeHash (some inserted) codeHash = some row := h
    by_cases hc : codeHash = inserted.codeHash
    · subst hc
      rw [Function.update_self] at h
      cases h
      exact .inr ⟨rfl, rfl, rfl⟩
    · rw [Function.update_of_ne hc] at h
      exact hsame h
  · rename_i taken now _ _
    unfold AccessWorld.takeCode at h
    rcases hfound : w.redeemable taken now with _ | found
    · rw [hfound] at h
      exact hsame h
    · rw [hfound] at h
      replace h : Function.update w.codes taken (some { found with usedAt := some now }) codeHash = some row := h
      by_cases hc : codeHash = taken
      · subst hc
        rw [Function.update_self] at h
        cases h
        exact .inl ⟨found, (redeemable_some hfound).1, some now, rfl, fun hnone => (by cases hnone)⟩
      · rw [Function.update_of_ne hc] at h
        exact hsame h
  · exact hsame h
  · exact hsame h
  · exact hsame h
  · exact hsame h
  · exact hsame h
  · exact hsame h

theorem tokens_apply {ev : Event AccessSig} {tokenHash : String} {row : TokenRow}
    (h : (w.apply ctx i party ev).tokens tokenHash = some row) :
    (∃ old, w.tokens tokenHash = some old ∧ old.Ended row) ∨
      (ev.op = .insertToken row ∧ ev.took = true ∧ row.tokenHash = tokenHash) := by
  have hsame : w.tokens tokenHash = some row →
      (∃ old, w.tokens tokenHash = some old ∧ old.Ended row) ∨
        (ev.op = .insertToken row ∧ ev.took = true ∧ row.tokenHash = tokenHash) :=
    fun h => .inl ⟨row, h, ended_refl row⟩
  unfold AccessWorld.apply at h
  split at h
  · exact hsame h
  · exact hsame h
  · exact hsame h
  · exact hsame h
  · exact hsame h
  · exact hsame h
  · exact hsame h
  · exact hsame h
  · rename_i inserted _ _
    replace h : Function.update w.tokens inserted.tokenHash (some inserted) tokenHash = some row := h
    by_cases ht : tokenHash = inserted.tokenHash
    · subst ht
      rw [Function.update_self] at h
      cases h
      exact .inr ⟨rfl, rfl, rfl⟩
    · rw [Function.update_of_ne ht] at h
      exact hsame h
  · exact hsame h
  · rename_i ended revokedAt _ _
    replace h : Function.update w.tokens ended ((w.tokens ended).map (AccessWorld.revoked revokedAt)) tokenHash =
      some row := h
    by_cases ht : tokenHash = ended
    · subst ht
      rw [Function.update_self] at h
      exact .inl (ended_mapped (fun old => ended_revoked old revokedAt) h)
    · rw [Function.update_of_ne ht] at h
      exact hsame h
  · rename_i grantId revokedAt _ _
    refine .inl (ended_mapped (fun (old : TokenRow) => ?_) h)
    split_ifs
    · exact ended_revoked old revokedAt
    · exact ended_refl old
  · exact hsame h
  · exact hsame h

theorem grantRow_apply {ev : Event AccessSig} {id : String} {row : GrantRow}
    (h : (w.apply ctx i party ev).grants id = some row) :
    (∃ old lastUsedAt, w.grants id = some old ∧ row = { old with lastUsedAt := lastUsedAt }) ∨
      (ev.op = .insertGrant row ∧ ev.took = true ∧ row.id = id) ∨
      ∃ loaded changed old, ev.op = .updateGrant loaded changed ∧ ev.took = true ∧ loaded.id = id ∧
        w.grants id = some old ∧ row = loaded.flush changed old := by
  have hsame : w.grants id = some row →
      ∃ old lastUsedAt, w.grants id = some old ∧ row = { old with lastUsedAt := lastUsedAt } :=
    fun h => ⟨row, row.lastUsedAt, h, rfl⟩
  unfold AccessWorld.apply at h
  split at h
  case h_4 inserted _ _ =>
    replace h : Function.update w.grants inserted.id (some inserted) id = some row := h
    by_cases hid : id = inserted.id
    · subst hid
      rw [Function.update_self] at h
      cases h
      exact .inr (.inl ⟨rfl, rfl, rfl⟩)
    · rw [Function.update_of_ne hid] at h
      exact .inl (hsame h)
  case h_5 loaded changed _ _ =>
    replace h : Function.update w.grants loaded.id ((w.grants loaded.id).map (loaded.flush changed)) id = some row := h
    by_cases hid : id = loaded.id
    · subst hid
      rw [Function.update_self] at h
      obtain ⟨old, hold, rfl⟩ := Option.map_eq_some_iff.1 h
      exact .inr (.inr ⟨loaded, changed, old, rfl, rfl, rfl, hold, rfl⟩)
    · rw [Function.update_of_ne hid] at h
      exact .inl (hsame h)
  case h_6 grantId usedAt _ _ =>
    unfold AccessWorld.touchGrant at h
    dsimp only at h
    by_cases hid : id = grantId
    · subst hid
      rw [Function.update_self] at h
      obtain ⟨old, hold, rfl⟩ := Option.map_eq_some_iff.1 h
      split_ifs
      · exact .inl ⟨old, some usedAt, hold, rfl⟩
      · exact .inl ⟨old, old.lastUsedAt, hold, rfl⟩
    · rw [Function.update_of_ne hid] at h
      exact .inl (hsame h)
  all_goals exact .inl (hsame h)

theorem grants_apply {ev : Event AccessSig} {id : String} {row : GrantRow}
    (h : (w.apply ctx i party ev).grants id = some row) :
    (∃ old, w.grants id = some old ∧ row.id = old.id ∧ row.userId = old.userId ∧ row.clientId = old.clientId) ∨
      (ev.op = .insertGrant row ∧ ev.took = true ∧ row.id = id) := by
  rcases grantRow_apply h with ⟨old, lastUsedAt, hold, rfl⟩ | hinserted | ⟨loaded, changed, old, -, -, -, hold, rfl⟩
  · exact .inl ⟨old, hold, rfl, rfl, rfl⟩
  · exact .inr hinserted
  · exact .inl ⟨old, hold, rfl, rfl, rfl⟩

theorem index_apply {ev : Event AccessSig} {userId : ℤ} {clientId id : String}
    (h : (w.apply ctx i party ev).index userId clientId = some id) :
    w.index userId clientId = some id ∨
      ∃ row, ev.op = .insertGrant row ∧ ev.took = true ∧ row.id = id ∧ row.userId = userId ∧ row.clientId = clientId := by
  unfold AccessWorld.apply at h
  split at h
  case h_4 inserted _ _ =>
    replace h : Function.update w.index inserted.userId (Function.update (w.index inserted.userId) inserted.clientId
      (some inserted.id)) userId clientId = some id := h
    by_cases hu : userId = inserted.userId
    · subst hu
      rw [Function.update_self] at h
      by_cases hc : clientId = inserted.clientId
      · subst hc
        rw [Function.update_self] at h
        exact .inr ⟨inserted, rfl, rfl, Option.some.inj h, rfl, rfl⟩
      · rw [Function.update_of_ne hc] at h
        exact .inl h
    · rw [Function.update_of_ne hu] at h
      exact .inl h
  all_goals exact .inl h

theorem scratch_apply {ev : Event AccessSig} {j : ℕ} :
    (ev.op ≠ .now ∨ j ≠ i → (w.apply ctx i party ev).read j = w.read j) ∧
      (ev.op ≠ .tokenUrlsafe ∨ j ≠ i → (w.apply ctx i party ev).drawn j = w.drawn j) ∧
      ((∀ id, ev.op ≠ .getGrant id) ∨ j ≠ i → (w.apply ctx i party ev).seen j = w.seen j) := by
  generalize hw : w.apply ctx i party ev = w'
  unfold AccessWorld.apply at hw
  split at hw <;> subst hw
  case h_1 =>
    refine ⟨fun h => ?_, fun _ => rfl, fun _ => rfl⟩
    rcases h with h | h
    · exact absurd rfl h
    · exact Function.update_of_ne h _ _
  case h_2 =>
    refine ⟨fun _ => rfl, fun h => ?_, fun _ => rfl⟩
    rcases h with h | h
    · exact absurd rfl h
    · exact Function.update_of_ne h _ _
  case h_3 =>
    refine ⟨fun _ => rfl, fun _ => rfl, fun h => ?_⟩
    rcases h with h | h
    · exact absurd rfl (h _)
    · exact Function.update_of_ne h _ _
  all_goals exact ⟨fun _ => rfl, fun _ => rfl, fun _ => rfl⟩

theorem read_apply {ev : Event AccessSig} {j : ℕ} (h : ev.op ≠ .now ∨ j ≠ i) :
    (w.apply ctx i party ev).read j = w.read j :=
  scratch_apply.1 h

theorem drawn_apply {ev : Event AccessSig} {j : ℕ} (h : ev.op ≠ .tokenUrlsafe ∨ j ≠ i) :
    (w.apply ctx i party ev).drawn j = w.drawn j :=
  scratch_apply.2.1 h

theorem seen_apply {ev : Event AccessSig} {j : ℕ} (h : (∀ id, ev.op ≠ .getGrant id) ∨ j ≠ i) :
    (w.apply ctx i party ev).seen j = w.seen j :=
  scratch_apply.2.2 h

end Origins

/-! ## The invariant -/

section Invariant

/-- Grants are indexed by user and client, codes and tokens are of stored grants, and a token has the subject of its
grant, this server's resource and the hash of a secret issued as it. -/
structure TablesInv (ctx : AccessContext) (w : AccessWorld) : Prop where
  grant : ∀ id row, w.grants id = some row → row.id = id ∧ w.index row.userId row.clientId = some id
  indexed : ∀ userId clientId id, w.index userId clientId = some id →
    ∃ row, w.grants id = some row ∧ row.userId = userId ∧ row.clientId = clientId
  code : ∀ codeHash row, w.codes codeHash = some row → row.codeHash = codeHash ∧ ∃ grant, w.grants row.grantId = some grant
  token : ∀ tokenHash row, w.tokens tokenHash = some row → row.tokenHash = tokenHash ∧ row.resource = some ctx.resource ∧
    (∃ grant, w.grants row.grantId = some grant ∧ row.subject = grant.userId.repr) ∧
    ∃ secret, ctx.hashSecret secret = tokenHash ∧ (secret, row.kind, row.grantId) ∈ w.issued

/-- What a call has read and drawn is what the tables and the ghosts say. -/
structure Grip.Borne (g : Grip) (w : AccessWorld) (i : ℕ) (party : AccessParty) : Prop where
  now : ∀ now, g.now = some now → w.read i = now
  drawn : ∀ secret, g.drawn = some secret → w.drawn i = secret
  grant : ∀ row, g.grant = some row → w.seen i = some row ∧
    ∃ row', w.grants row.id = some row' ∧ row'.userId = row.userId
  consent : ∀ id, g.consent = some id → ∃ userId clientId, party.consents = some (userId, clientId) ∧
    w.index userId clientId = some id
  loaded : ∀ row, g.loaded = some row → ∃ row', w.grants row.id = some row' ∧ row'.userId = row.userId ∧
    row'.clientId = row.clientId
  token : ∀ row, g.token = some row → ∃ row', w.tokens row.tokenHash = some row' ∧ row.Ended row'

theorem borne_start : Grip.Borne {} w i party where
  now _ h := by cases h
  drawn _ h := by cases h
  grant _ h := by cases h
  consent _ h := by cases h
  loaded _ h := by cases h
  token _ h := by cases h

theorem borne_fresh (hv : g.Borne w i party) : g.fresh.Borne w i party where
  now := hv.now
  drawn := hv.drawn
  grant _ h := by cases h
  consent _ h := by cases h
  loaded := hv.loaded
  token _ h := by cases h

theorem ended_trans {a b c : TokenRow} (hab : a.Ended b) (hbc : b.Ended c) : a.Ended c := by
  obtain ⟨r, rfl, hr⟩ := hab
  obtain ⟨r', rfl, hr'⟩ := hbc
  exact ⟨r', rfl, fun h => hr (hr' h)⟩

/-- What a call knows it knows still, while it is another's turn. -/
theorem borne_grows (hv : g.Borne w i party) (hgrows : w.Grows w') (hread : w'.read i = w.read i)
    (hdrawn : w'.drawn i = w.drawn i) (hseen : w'.seen i = w.seen i) : g.Borne w' i party where
  now now h := hread.trans (hv.now now h)
  drawn secret h := hdrawn.trans (hv.drawn secret h)
  grant row h := by
    obtain ⟨hrow, row', hrow', hu⟩ := hv.grant row h
    obtain ⟨row'', hrow'', hu', -⟩ := hgrows.grants row.id row' hrow'
    exact ⟨hseen.trans hrow, row'', hrow'', hu'.trans hu⟩
  consent id h := by
    obtain ⟨userId, clientId, hp, hindex⟩ := hv.consent id h
    exact ⟨userId, clientId, hp, hgrows.index _ _ _ hindex⟩
  loaded row h := by
    obtain ⟨row', hrow', hu, hc⟩ := hv.loaded row h
    obtain ⟨row'', hrow'', hu', hc'⟩ := hgrows.grants row.id row' hrow'
    exact ⟨row'', hrow'', hu'.trans hu, hc'.trans hc⟩
  token row h := by
    obtain ⟨row', hrow', hended⟩ := hv.token row h
    obtain ⟨row'', hrow'', hended'⟩ := hgrows.tokens _ _ hrow'
    exact ⟨row'', hrow'', ended_trans hended hended'⟩

theorem tablesInv_apply {ev : Event AccessSig} (hI : TablesInv ctx w) (hv : g.Borne w i party)
    (hpre : Permitted ctx party g ev.op) (hall : w.Allowed ctx ev) : TablesInv ctx (w.apply ctx i party ev) := by
  have hgrows : w.Grows (w.apply ctx i party ev) := grows_apply hall
  refine ⟨fun id row h => ?_, fun userId clientId id h => ?_, fun codeHash row h => ?_, fun tokenHash row h => ?_⟩
  · rcases grants_apply h with ⟨old, hold, hid, hu, hc⟩ | ⟨hop, htook, rfl⟩
    · obtain ⟨hid', hindex⟩ := hI.grant id old hold
      rw [hu, hc]
      exact ⟨hid.trans hid', hgrows.index _ _ _ hindex⟩
    · obtain ⟨op, out, took, hk⟩ := ev
      obtain rfl : op = .insertGrant row := hop
      obtain rfl : took = true := htook
      refine ⟨rfl, ?_⟩
      show Function.update w.index row.userId (Function.update (w.index row.userId) row.clientId (some row.id))
        row.userId row.clientId = some row.id
      rw [Function.update_self, Function.update_self]
  · rcases index_apply h with hold | ⟨row, hop, htook, rfl, rfl, rfl⟩
    · obtain ⟨row, hrow, hu, hc⟩ := hI.indexed _ _ _ hold
      obtain ⟨row', hrow', hu', hc'⟩ := hgrows.grants _ _ hrow
      exact ⟨row', hrow', hu'.trans hu, hc'.trans hc⟩
    · obtain ⟨op, out, took, hk⟩ := ev
      obtain rfl : op = .insertGrant row := hop
      obtain rfl : took = true := htook
      exact ⟨row, Function.update_self .., rfl, rfl⟩
  · rcases codes_apply h with ⟨old, hold, usedAt, rfl, -⟩ | ⟨hop, htook, rfl⟩
    · obtain ⟨hhash, grant, hgrant⟩ := hI.code _ _ hold
      obtain ⟨grant', hgrant', -⟩ := hgrows.grants _ _ hgrant
      exact ⟨hhash, grant', hgrant'⟩
    · rw [hop] at hpre
      obtain ⟨userId, clientId, -, hindex⟩ := hv.consent _ hpre.2.1
      obtain ⟨grant, hgrant, -⟩ := hI.indexed _ _ _ hindex
      obtain ⟨grant', hgrant', -⟩ := hgrows.grants _ _ hgrant
      exact ⟨rfl, grant', hgrant'⟩
  · rcases tokens_apply h with ⟨old, hold, revokedAt, rfl, -⟩ | ⟨hop, htook, rfl⟩
    · obtain ⟨hhash, hresource, ⟨grant, hgrant, hsubject⟩, secret, hsecret, hissued⟩ := hI.token _ _ hold
      obtain ⟨grant', hgrant', hu, -⟩ := hgrows.grants _ _ hgrant
      exact ⟨hhash, hresource, ⟨grant', hgrant', by rw [hu]; exact hsubject⟩, secret, hsecret, hgrows.issued hissued⟩
    · obtain ⟨op, out, took, hk⟩ := ev
      obtain rfl : op = .insertToken row := hop
      obtain rfl : took = true := htook
      obtain ⟨-, hresource, ⟨secret, hdrawn, hsecret⟩, grant, scopes, ⟨hgrant, -⟩, -, -, hid, hsubject, -⟩ := hpre
      obtain ⟨-, row', hrow', hu⟩ := hv.grant grant hgrant
      refine ⟨rfl, hresource, ⟨row', ?_, ?_⟩, secret, hsecret.symm, ?_⟩
      · rw [hid]
        exact hrow'
      · rw [hsubject, hu]
      · have hhead : (w.drawn i, row.kind, row.grantId) ∈ (w.insertToken i row).issued := List.mem_cons_self ..
        rwa [hv.drawn secret hdrawn] at hhead

theorem relied_of_allowed {ev : Event AccessSig} (hI : TablesInv ctx w) (hv : g.Borne w i party)
    (hpre : Permitted ctx party g ev.op) (hall : w.Allowed ctx ev) : Relied ctx g ev := by
  obtain ⟨op, out, took, hk⟩ := ev
  cases op with
  | getClient clientId =>
    rcases out with e | client
    · trivial
    · exact hall
  | selectGrant userId clientId =>
    rcases out with e | _ | row
    · trivial
    · trivial
    · have hrow : some row = w.selectGrant userId clientId := hall
      obtain ⟨id, hid, hstored⟩ := Option.bind_eq_some_iff.1 hrow.symm
      obtain ⟨row', hrow', hu, hc⟩ := hI.indexed _ _ _ hid
      obtain rfl : row' = row := Option.some.inj (hrow'.symm.trans hstored)
      refine ⟨hu, hc, fun consent hconsent => ?_⟩
      obtain ⟨userId', clientId', hp, hindex⟩ := hv.consent consent hconsent
      have hp' : party.consents = some (userId, clientId) := hpre
      rw [hp'] at hp
      cases hp
      rw [hid] at hindex
      cases hindex
      exact (hI.grant id _ hstored).1
  | getGrant grantId =>
    rcases out with e | _ | row
    · trivial
    · trivial
    · exact (hI.grant grantId row (Eq.symm hall)).1
  | getToken tokenHash =>
    rcases out with e | _ | row
    · trivial
    · trivial
    · exact (hI.token tokenHash row (Eq.symm hall)).1
  | _ => trivial

/-- What a call knows after its own exchange. -/
theorem borne_apply {ev : Event AccessSig} (hI : TablesInv ctx w) (hv : g.Borne w i party)
    (hpre : Permitted ctx party g ev.op) (hall : w.Allowed ctx ev) :
    (gripStep party g ev).Borne (w.apply ctx i party ev) i party := by
  have hgrows : w.Grows (w.apply ctx i party ev) := grows_apply hall
  obtain ⟨op, out, took, hk⟩ := ev
  have hquiet : op ≠ .now → op ≠ .tokenUrlsafe → (∀ id, op ≠ .getGrant id) →
      g.Borne (w.apply ctx i party ⟨op, out, took, hk⟩) i party := fun h1 h2 h3 =>
    borne_grows hv hgrows (read_apply (.inl h1)) (drawn_apply (.inl h2)) (seen_apply (.inl h3))
  cases op with
  | now =>
    rcases out with e | now
    · exact borne_grows hv hgrows rfl rfl rfl
    · exact ⟨fun _ h => (by cases h; exact Function.update_self ..), hv.drawn, fun _ h => (by cases h), fun _ h => (by cases h),
        hv.loaded, fun _ h => (by cases h)⟩
  | tokenUrlsafe =>
    rcases out with e | secret
    · exact borne_grows hv hgrows rfl rfl rfl
    · exact ⟨hv.now, fun _ h => (by cases h; exact Function.update_self ..), hv.grant, hv.consent, hv.loaded, hv.token⟩
  | getGrant grantId =>
    rcases out with e | _ | row
    · exact borne_grows hv hgrows rfl rfl rfl
    · exact ⟨hv.now, hv.drawn, fun _ h => (by cases h), hv.consent, hv.loaded, hv.token⟩
    · have hrow : some row = w.grants grantId := hall
      refine ⟨hv.now, hv.drawn, fun _ h => ?_, hv.consent, hv.loaded, hv.token⟩
      cases h
      refine ⟨Function.update_self .., row, ?_, rfl⟩
      rw [(hI.grant grantId row hrow.symm).1]
      exact hrow.symm
  | selectGrant userId clientId =>
    rcases out with e | found
    · exact hv
    · refine ⟨hv.now, hv.drawn, hv.grant, hv.consent, fun row h => ?_, hv.token⟩
      obtain rfl : found = some row := h
      have hrow : some row = w.selectGrant userId clientId := hall
      obtain ⟨id, -, hrow⟩ := Option.bind_eq_some_iff.1 hrow.symm
      refine ⟨row, ?_, rfl, rfl⟩
      rw [(hI.grant id row hrow).1]
      exact hrow
  | selectOwned grantId userId =>
    rcases out with e | found
    · exact hv
    · refine ⟨hv.now, hv.drawn, hv.grant, hv.consent, fun row h => ?_, hv.token⟩
      obtain rfl : found = some row := h
      have hrow : some row = w.selectOwned grantId userId := hall
      obtain ⟨hrow, -⟩ := Option.filter_eq_some_iff.1 hrow.symm
      refine ⟨row, ?_, rfl, rfl⟩
      rw [(hI.grant grantId row hrow).1]
      exact hrow
  | getToken tokenHash =>
    rcases out with e | _ | row
    · exact hv
    · have hfresh := borne_fresh hv
      exact hfresh
    · have hfresh := borne_fresh hv
      refine ⟨hfresh.now, hfresh.drawn, hfresh.grant, hfresh.consent, hfresh.loaded, fun _ h => ?_⟩
      cases h
      have hrow : some row = w.tokens tokenHash := hall
      refine ⟨row, ?_, ended_refl row⟩
      rw [(hI.token tokenHash row hrow.symm).1]
      exact hrow.symm
  | insertGrant row =>
    have hbase := borne_fresh (hquiet (by simp) (by simp) (by simp))
    rcases out with e | u
    · exact hbase
    · obtain rfl : took = true := hk u rfl
      obtain ⟨req, rfl, hu, hc, -⟩ := hpre
      refine ⟨hbase.now, hbase.drawn, hbase.grant, fun id h => ⟨req.userId, req.clientId, rfl, ?_⟩, hbase.loaded,
        hbase.token⟩
      cases h
      show Function.update w.index row.userId (Function.update (w.index row.userId) row.clientId (some row.id)) req.userId
        req.clientId = some row.id
      rw [hu, hc, Function.update_self, Function.update_self]
  | updateGrant loaded row =>
    have hbase := hquiet (by simp) (by simp) (by simp)
    rcases out with e | u
    · exact borne_fresh hbase
    · show Grip.Borne (if party.consents.isSome then { g.fresh with consent := some loaded.id } else g) _ i party
      split_ifs with hconsents
      · have hfresh := borne_fresh hbase
        refine ⟨hfresh.now, hfresh.drawn, hfresh.grant, fun id h => ?_, hfresh.loaded, hfresh.token⟩
        cases h
        cases party with
        | approve req =>
          obtain ⟨hloaded, hu, hc, -⟩ := hpre
          obtain ⟨row', hrow', hu', hc'⟩ := hv.loaded loaded hloaded
          have hindex := (hI.grant _ _ hrow').2
          rw [hu', hc', hu, hc] at hindex
          exact ⟨req.userId, req.clientId, rfl, hgrows.index _ _ _ hindex⟩
        | _ => exact absurd hconsents (by simp [AccessParty.consents])
      · exact hbase
  | takeCode codeHash now =>
    have hbase := borne_fresh (hquiet (by simp) (by simp) (by simp))
    rcases out with e | taken
    · exact hbase
    · exact ⟨hbase.now, hbase.drawn, hbase.grant, hbase.consent, hbase.loaded, hbase.token⟩
  | revokeToken tokenHash revokedAt =>
    have hbase := hquiet (by simp) (by simp) (by simp)
    rcases out with e | u
    · exact hbase
    · exact ⟨hbase.now, hbase.drawn, hbase.grant, hbase.consent, hbase.loaded, hbase.token⟩
  | respond answer => exact borne_start
  | _ => exact hquiet (by simp) (by simp) (by simp)

theorem tables_watched : (accessSystem ctx).Watched (accessMonitor ctx) {} (TablesInv ctx)
    (fun w i party g => g.Borne w i party) fun _ _ _ _ => True where
  start := by
    rintro w w' i party p hI ⟨rfl, rfl⟩
    refine ⟨⟨hI.grant, hI.indexed, hI.code, hI.token⟩, ⟨borne_start, program_permitted party⟩, ?_⟩
    intro j party' g hji hv
    exact borne_grows hv (grows_of_eq rfl rfl rfl rfl rfl) (Function.update_of_ne hji _ _) rfl rfl
  act := by
    intro c i party ev g hI hv hpre hall _
    exact ⟨tablesInv_apply hI hv hpre hall, relied_of_allowed hI hv hpre hall, borne_apply hI hv hpre hall⟩
  other := by
    intro c i party ev g hI hv hpre hall _ j party' g' q hji _ hv'
    exact borne_grows hv' (grows_apply hall) (read_apply (.inr hji)) (drawn_apply (.inr hji)) (seen_apply (.inr hji))

theorem tablesInv_start {c : (accessSystem ctx).Config} (hc : AccessStart c) : TablesInv ctx c.world := by
  obtain ⟨-, clock, hw⟩ := hc
  rw [hw]
  exact ⟨fun _ _ h => (by cases h), fun _ _ _ h => (by cases h), fun _ _ h => (by cases h), fun _ _ h => (by cases h)⟩

end Invariant

end Transform.Access
