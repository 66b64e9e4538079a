import Transform.Access.Authority

/-!
# Access.ScopeRules — what is granted, and what is issued under it

A consent stores scopes within the deployment's allow-list and the client's registration, an edit whatever it asks for;
a code is redeemed for the scopes its grant still has, a refresh token for the ones it carries.  `scopes_within` gives the
conditions under which grants and tokens keep to the rules; each of them fails in a run (`scope_rules_broken`).
-/

namespace Transform.Access

open Lib Conversions

variable {ctx : AccessContext} {w : AccessWorld} {i : ℕ} {party : AccessParty} {g : Grip}

/-! ## The rules -/

section Rules

structure MayGrant (ctx : AccessContext) (clientId : String) (scopes : List AgentScope) : Prop where
  grantable : ∀ scope ∈ scopes, scope ∈ ctx.grantable
  registered : ∀ client, ctx.clients clientId = some client → client.scopeValues ≠ [] →
    ∀ scope ∈ scopes, scope.value ∈ client.scopeValues

def GrantsWithin (ctx : AccessContext) (w : AccessWorld) : Prop :=
  ∀ id row, w.grants id = some row → normalizeScopes row.scopes ≠ [] ∧
    MayGrant ctx row.clientId (normalizeScopes row.scopes)

def TokensScoped (w : AccessWorld) : Prop :=
  ∀ tokenHash row, w.tokens tokenHash = some row → normalizeScopes row.scopes ≠ []

def IssuesWithin (c : (accessSystem ctx).Config) : (accessSystem ctx).Label → Prop
  | .act _ _ ⟨.insertToken row, _, _, _⟩ => normalizeScopes row.scopes ≠ [] ∧
      ∃ grant, AccessWorld.grants c.world row.grantId = some grant ∧
        ∀ scope ∈ normalizeScopes row.scopes, scope ∈ normalizeScopes grant.scopes
  | _ => True

/-- The values of a consent request. -/
def ApproveRequest.raw (req : ApproveRequest) : List String :=
  ((req.requestedScopes.getD []).map strip).filter (· ≠ "")

def ApproveRequest.NamesCapability (req : ApproveRequest) : Prop := req.raw = [] ∨ normalizeScopes req.raw ≠ []

/-- The grant has, as the call read it, the scopes that are asked of the refresh token. -/
def RefreshesWithin (ctx : AccessContext) (w : AccessWorld) (i : ℕ) (req : RefreshRequest) : Prop :=
  ∀ token grant narrowed, w.tokens (ctx.hashSecret req.refreshToken) = some token → w.seen i = some grant →
    narrowScopes token.toToken.scopes req.scopes = .ok narrowed → ∀ scope ∈ narrowed, scope ∈ normalizeScopes grant.scopes

/-- The grant has not lost a scope since the call read it. -/
def NotNarrowed (w : AccessWorld) (i : ℕ) : Prop :=
  ∀ seen grant, w.seen i = some seen → w.grants seen.id = some grant →
    ∀ scope ∈ normalizeScopes seen.scopes, scope ∈ normalizeScopes grant.scopes

/-- A consent names a capability or nothing, an edit asks for what may be granted to the client, and a token is stored
under a grant that has not been narrowed, neither since the call read it nor since the refresh token was minted. -/
def WithinRules (ctx : AccessContext) (w : AccessWorld) (i : ℕ) : AccessParty → AccessOp → Prop
  | .approve req, .insertGrant _ => req.NamesCapability
  | .approve req, .updateGrant _ _ => req.NamesCapability
  | .update req, .updateGrant loaded _ => MayGrant ctx loaded.clientId req.normalized
  | .exchangeCode _, .insertToken _ => NotNarrowed w i
  | .exchangeRefresh req, .insertToken _ => NotNarrowed w i ∧ RefreshesWithin ctx w i req
  | _, _ => True

theorem resolveScopes_ok {client : OAuthClientRecord} {req : ApproveRequest} {scopes : List AgentScope}
    (hclient : ctx.clients req.clientId = some client)
    (h : resolveScopes ctx client req.requestedScopes = .ok scopes) :
    MayGrant ctx req.clientId scopes ∧ (req.NamesCapability → scopes ≠ []) := by
  unfold resolveScopes at h
  obtain ⟨_, -, h⟩ := bind_ok h
  obtain ⟨_, hgrantable, h⟩ := bind_ok h
  obtain ⟨_, hregistered, h⟩ := bind_ok h
  have hscopes : (if req.raw = [] then defaultScopes else normalizeScopes req.raw) = scopes := by
    cases h
    rfl
  replace hgrantable := of_decide_eq_true (ensure_ok hgrantable)
  replace hregistered := of_decide_eq_true (ensure_ok hregistered)
  rw [← hscopes]
  refine ⟨⟨fun scope hmem => ?_, fun client' hclient' hnil scope hmem => ?_⟩, fun hnames => ?_⟩
  · have h := List.filter_eq_nil_iff.1 hgrantable scope hmem
    simpa using h
  · obtain rfl : client = client' := Option.some.inj (hclient.symm.trans hclient')
    have h := List.filter_eq_nil_iff.1 (hregistered.resolve_left hnil) scope hmem
    simpa using h
  · rcases hnames with hraw | hraw
    · rw [if_pos hraw]
      decide
    · by_cases hnil : req.raw = []
      · rw [if_pos hnil]
        decide
      · rw [if_neg hnil]
        exact hraw

theorem narrowScopes_ok {carried scopes : List AgentScope} {asked : Option (List String)}
    (h : narrowScopes carried asked = .ok scopes) (hcarried : carried ≠ []) : scopes ≠ [] := by
  unfold narrowScopes at h
  split at h
  · cases h
    exact hcarried
  · cases h
    exact hcarried
  · dsimp only at h
    split_ifs at h with hrefused
    cases h
    exact fun hnil => hrefused (.inl hnil)

/-- Scopes that were read from a request, stored as words. -/
theorem within_values {clientId : String} {scopes : List AgentScope} (hnil : scopes ≠ [])
    (h : MayGrant ctx clientId scopes) :
    normalizeScopes (scopes.map (·.value)) ≠ [] ∧ MayGrant ctx clientId (normalizeScopes (scopes.map (·.value))) :=
  ⟨normalizeScopes_values_ne_nil hnil,
    fun scope hmem => h.grantable scope (mem_normalizeScopes_values.1 hmem),
    fun client hclient hvalues scope hmem => h.registered client hclient hvalues scope (mem_normalizeScopes_values.1 hmem)⟩

end Rules

/-! ## Grants -/

section Grants

theorem scopes_apply {ev : Event AccessSig} {id : String} {row : GrantRow}
    (h : (w.apply ctx i party ev).grants id = some row) :
    (∃ old, w.grants id = some old ∧ row.clientId = old.clientId ∧ row.scopes = old.scopes) ∨
      ev.op = .insertGrant row ∨
      ∃ loaded changed old, ev.op = .updateGrant loaded changed ∧ w.grants loaded.id = some old ∧
        row.clientId = old.clientId ∧ changed.scopes ≠ loaded.scopes ∧ row.scopes = changed.scopes := by
  rcases grantRow_apply h with ⟨old, lastUsedAt, hold, rfl⟩ | ⟨hop, -, -⟩ | ⟨loaded, changed, old, hop, -, rfl, hold, rfl⟩
  · exact .inl ⟨old, hold, rfl, rfl⟩
  · exact .inr (.inl hop)
  · by_cases hchanged : changed.scopes = loaded.scopes
    · exact .inl ⟨old, hold, rfl, if_pos hchanged⟩
    · exact .inr (.inr ⟨loaded, changed, old, hop, hold, rfl, hchanged, if_neg hchanged⟩)

theorem grantsWithin_apply {ev : Event AccessSig} (hI : GrantsWithin ctx w) (hv : g.Borne w i party)
    (hpre : Permitted ctx party g ev.op) (hφ : WithinRules ctx w i party ev.op) :
    GrantsWithin ctx (w.apply ctx i party ev) := by
  intro id row h
  rcases scopes_apply h with ⟨old, hold, hclient, hscopes⟩ | hop | ⟨loaded, changed, old, hop, hold, hclient, hchanged, hscopes⟩
  · rw [hclient, hscopes]
    exact hI id old hold
  · rw [hop] at hpre hφ
    obtain ⟨req, rfl, -, hclient, -, client, scopes, hfound, hresolved, hscopes⟩ := hpre
    obtain ⟨hmay, hnil⟩ := resolveScopes_ok hfound hresolved
    rw [hscopes, hclient]
    exact within_values (hnil hφ) hmay
  · rw [hop] at hpre hφ
    obtain ⟨hloaded, hwrites⟩ := hpre
    obtain ⟨row', hrow', -, hc⟩ := hv.loaded loaded hloaded
    obtain rfl : row' = old := Option.some.inj (hrow'.symm.trans hold)
    rw [hscopes, hclient, hc]
    cases party with
    | approve req =>
      obtain ⟨-, hclient', -, client, scopes, hfound, hresolved, hvalues⟩ := hwrites
      obtain ⟨hmay, hnil⟩ := resolveScopes_ok hfound hresolved
      rw [hvalues, hclient']
      exact within_values (hnil hφ) hmay
    | update req =>
      obtain ⟨-, hnil, hvalues⟩ := hwrites
      rw [hvalues]
      exact within_values hnil hφ
    | revokeConnection _ _ => exact absurd hwrites.2.2 hchanged
    | pause _ _ => exact absurd hwrites.2.2 hchanged
    | resume _ _ => exact absurd hwrites.2.2 hchanged
    | _ => exact hwrites.elim

end Grants

/-! ## Tokens -/

section Tokens

theorem issued_scopes {row : TokenRow} (hT : TokensScoped w) (hv : g.Borne w i party)
    (hpre : Permitted ctx party g (.insertToken row)) : normalizeScopes row.scopes ≠ [] := by
  obtain ⟨-, -, -, grant, scopes, -, -, hissues, -, -, hscopes⟩ := hpre
  rw [hscopes]
  refine normalizeScopes_values_ne_nil ?_
  cases party with
  | exchangeCode req =>
    obtain ⟨code, -, hnil, -⟩ := hissues
    exact hnil
  | exchangeRefresh req =>
    obtain ⟨token, htoken, -, hnarrowed⟩ := hissues
    obtain ⟨row', hrow', revokedAt, rfl, -⟩ := hv.token token htoken
    have hnil := hT _ _ hrow'
    exact narrowScopes_ok hnarrowed hnil
  | _ => exact hissues.elim

theorem issues_within {row : TokenRow} (hT : TokensScoped w) (hv : g.Borne w i party)
    (hpre : Permitted ctx party g (.insertToken row)) (hφ : WithinRules ctx w i party (.insertToken row)) :
    normalizeScopes row.scopes ≠ [] ∧ ∃ grant, w.grants row.grantId = some grant ∧
      ∀ scope ∈ normalizeScopes row.scopes, scope ∈ normalizeScopes grant.scopes := by
  refine ⟨issued_scopes hT hv hpre, ?_⟩
  obtain ⟨-, -, -, seen, scopes, ⟨hgrant, -⟩, -, hissues, hid, -, hscopes⟩ := hpre
  obtain ⟨hseen, grant, hstored, -⟩ := hv.grant seen hgrant
  refine ⟨grant, by rw [hid, hstored], fun scope hmem => ?_⟩
  rw [hscopes] at hmem
  replace hmem := mem_normalizeScopes_values.1 hmem
  cases party with
  | exchangeCode req =>
    obtain ⟨code, -, -, rfl⟩ := hissues
    have hseenScope : scope ∈ seen.toGrant.scopes := of_decide_eq_true (List.mem_filter.1 hmem).2
    exact hφ seen grant hseen hstored scope hseenScope
  | exchangeRefresh req =>
    obtain ⟨token, htoken, hhash, hnarrowed⟩ := hissues
    obtain ⟨row', hrow', revokedAt, rfl, -⟩ := hv.token token htoken
    rw [hhash] at hrow'
    exact hφ.1 seen grant hseen hstored scope (hφ.2 _ seen scopes hrow' hseen hnarrowed scope hmem)
  | _ => exact hissues.elim

theorem tokensScoped_apply {ev : Event AccessSig} (hT : TokensScoped w) (hv : g.Borne w i party)
    (hpre : Permitted ctx party g ev.op) : TokensScoped (w.apply ctx i party ev) := by
  intro tokenHash row h
  rcases tokens_apply h with ⟨old, hold, revokedAt, rfl, -⟩ | ⟨hop, -, -⟩
  · exact hT tokenHash old hold
  · rw [hop] at hpre
    exact issued_scopes hT hv hpre

end Tokens

/-! ## Runs -/

section Runs

/-- The rules, of an exchange of a run. -/
def WithinRulesAt (ctx : AccessContext) (c : (accessSystem ctx).Config) (i : ℕ) (party : AccessParty)
    (ev : Event AccessSig) : Prop := WithinRules ctx c.world i party ev.op

theorem scopes_kept : (accessSystem ctx).Kept (accessMonitor ctx) {} (TablesInv ctx)
    (fun w i party g => g.Borne w i party) (fun w => GrantsWithin ctx w ∧ TokensScoped w) (fun _ _ _ _ => True)
    (WithinRulesAt ctx) where
  start := by
    rintro w w' i party p - hI ⟨rfl, -⟩
    exact ⟨hI, trivial, fun _ _ _ _ _ => trivial⟩
  act := by
    intro c i party ev g hI hv hI' _ hpre _ hφ
    exact ⟨⟨grantsWithin_apply hI'.1 hv hpre hφ, tokensScoped_apply hI'.2 hv hpre⟩, trivial⟩
  other := by
    intro c i party ev g _ _ _ _ _ _ _ j party' g' q _ _ _ _
    trivial

/-- Stored grants keep to the rules, and so does the token that a step stores. -/
def ScopeRules (c : (accessSystem ctx).Config) (l : (accessSystem ctx).Label) (c' : (accessSystem ctx).Config) : Prop :=
  GrantsWithin ctx c'.world ∧ IssuesWithin c l

/-- **Scopes within the rules**: along every run whose writes meet the conditions, every stored grant has scopes, all
grantable and registered by its client, and every token is stored with scopes that its grant has at that moment. -/
theorem scopes_within {c : (accessSystem ctx).Config} {tr : List ((accessSystem ctx).Label × (accessSystem ctx).Config)}
    (hc : AccessStart c) (hs : (accessSystem ctx).Steps c tr) (hφ : Along (ActOnly (WithinRulesAt ctx)) c tr) :
    Along ScopeRules c tr := by
  have hP := preserved_of_watched (watched_of_kept tables_watched (@scopes_kept ctx))
  have hstart : GrantsWithin ctx c.world ∧ TokensScoped c.world := by
    obtain ⟨-, clock, hw⟩ := hc
    rw [hw]
    exact ⟨fun _ _ h => (by cases h), fun _ _ h => (by cases h)⟩
  refine along_of_preserved hP (fun c l c' hI hst hl => ?_) (watched_start hc.1 ⟨tablesInv_start hc, hstart⟩) hs hφ
  refine ⟨(inv_step hP hI hst hl).1.2.1, ?_⟩
  cases hst with
  | start _ _ => trivial
  | exit => trivial
  | @act i party op k hrun out took h hall =>
    obtain ⟨g, ⟨hv, -⟩, hpre⟩ := watched_call hI hrun
    cases op with
    | insertToken row => exact issues_within hI.1.2.2 hv hpre hl
    | _ => trivial

end Runs

/-! ## Consents, edits and refreshes -/

section Concrete

instance decidableMayGrant (clientId : String) (scopes : List AgentScope) : Decidable (MayGrant ctx clientId scopes) :=
  decidable_of_iff ((∀ scope ∈ scopes, scope ∈ ctx.grantable) ∧ ∀ client ∈ ctx.clients clientId,
    client.scopeValues ≠ [] → ∀ scope ∈ scopes, scope.value ∈ client.scopeValues)
    ⟨fun h => ⟨h.1, h.2⟩, fun h => ⟨h.1, h.2⟩⟩

instance decidableNotNarrowed : Decidable (NotNarrowed w i) :=
  decidable_of_iff (∀ seen ∈ w.seen i, ∀ grant ∈ w.grants seen.id, ∀ scope ∈ normalizeScopes seen.scopes,
    scope ∈ normalizeScopes grant.scopes)
    ⟨fun h seen grant hseen hgrant => h seen hseen grant hgrant, fun h seen hseen grant hgrant => h seen grant hseen hgrant⟩

instance decidableRefreshesWithin (req : RefreshRequest) : Decidable (RefreshesWithin ctx w i req) := by
  rcases htoken : w.tokens (ctx.hashSecret req.refreshToken) with _ | token
  · exact isTrue fun token grant narrowed h => (by rw [htoken] at h; cases h)
  · rcases hnarrowed : narrowScopes token.toToken.scopes req.scopes with e | narrowed
    · refine isTrue fun token' grant narrowed h _ h' => ?_
      rw [htoken] at h
      cases h
      rw [hnarrowed] at h'
      cases h'
    · refine decidable_of_iff (∀ grant ∈ w.seen i, ∀ scope ∈ narrowed, scope ∈ normalizeScopes grant.scopes)
        ⟨fun hall token' grant narrowed' h hseen h' => ?_, fun hall grant hseen => hall token grant narrowed htoken hseen hnarrowed⟩
      rw [htoken] at h
      cases h
      rw [hnarrowed] at h'
      cases h'
      exact hall grant hseen

instance decidableWithinRules (op : AccessOp) : Decidable (WithinRules ctx w i party op) := by
  unfold WithinRules ApproveRequest.NamesCapability
  split <;> infer_instance

instance decidableWithinRulesAt (c : sampleSystem.Config) (i : ℕ) (party : AccessParty) (ev : Event AccessSig) :
    Decidable (WithinRulesAt sampleAccess c i party ev) :=
  @decidableWithinRules sampleAccess c.world i party ev.op

/-- What the rules say of the one grant that the runs below store, and of the tokens. -/
def ScopeRulesSeen (c : sampleSystem.Config) (l : sampleSystem.Label) (c' : sampleSystem.Config) : Prop :=
  (∀ row ∈ AccessWorld.grants c'.world "grant-1", normalizeScopes row.scopes ≠ [] ∧
    MayGrant sampleAccess row.clientId (normalizeScopes row.scopes)) ∧ IssuesWithin c l

abbrev SampleLabel := sampleSystem.Label

instance decidableIssuesWithin (c : sampleSystem.Config) (l : SampleLabel) : Decidable (IssuesWithin c l) := by
  unfold IssuesWithin
  split
  · rename_i row _ _ _
    exact decidable_of_iff (normalizeScopes row.scopes ≠ [] ∧ ∃ grant ∈ AccessWorld.grants c.world row.grantId,
      ∀ scope ∈ normalizeScopes row.scopes, scope ∈ normalizeScopes grant.scopes) Iff.rfl
  · infer_instance

instance decidableScopeRulesSeen (c : sampleSystem.Config) (l : sampleSystem.Label) (c' : sampleSystem.Config) :
    Decidable (ScopeRulesSeen c l c') := by
  unfold ScopeRulesSeen
  infer_instance

def editTo (scopes : List String) : AccessParty :=
  .update { userId := 7, grantId := "grant-1", scopes := scopes, folderAccess := .all, folderId := none,
            historyScope := .agent, confirmDestructive := true }

/-- A consent and its redemption, an edit of the grant, and a refresh. -/
def editAndRefresh (scopes : Option (List String)) : List (sampleSystem.Label × sampleSystem.Config) :=
  sampleRun (wholeCall (.approve sampleConsent) 0 9 ++
    wholeCall (.exchangeCode { clientId := "app", code := "secret-1" }) 1 8 ++ wholeCall (editTo ["documents.read"]) 2 4 ++
    wholeCall (.exchangeRefresh { clientId := "app", refreshToken := "secret-3", scopes := scopes }) 3 9)

theorem scopes_within_edit : Along ScopeRules nothingStored (editAndRefresh (some ["documents.read"])) := by
  refine scopes_within start_nothingStored (steps_drive accessDriver _ _) ?_
  exact @of_decide_eq_true _ (@decidableAlong _ _ _ (@decidableActOnly _ _ _ decidableWithinRulesAt) _ _)
    (by decide +kernel)

def markerOnly : List (sampleSystem.Label × sampleSystem.Config) :=
  sampleRun (wholeCall (.approve { sampleConsent with requestedScopes := some ["offline_access"] }) 0 9)

/-- An edit that asks for a scope which the server does not grant. -/
def editedBeyond : List (sampleSystem.Label × sampleSystem.Config) :=
  sampleRun (wholeCall (.approve sampleConsent) 0 9 ++ wholeCall (editTo ["documents.delete"]) 1 4)

/-- The rules fail of a consent, of an edit, and of a refresh after an edit. -/
theorem scope_rules_broken : AccessStart nothingStored ∧ ∀ tr ∈ [markerOnly, editedBeyond, editAndRefresh none],
    sampleSystem.Steps nothingStored tr ∧ ¬ Along ScopeRules nothingStored tr := by
  have hseen : ∀ c l c', @ScopeRules sampleAccess c l c' → ScopeRulesSeen c l c' :=
    fun c l c' h => ⟨fun row hrow => h.1 "grant-1" row hrow, h.2⟩
  have hbroken : ∀ tr ∈ [markerOnly, editedBeyond, editAndRefresh none], ¬ Along ScopeRulesSeen nothingStored tr := by
    simp only [List.forall_mem_cons, List.not_mem_nil, false_imp_iff, implies_true, and_true]
    refine ⟨?_, ?_, ?_⟩
    · exact @of_decide_eq_true _ (@instDecidableNot _ (@decidableAlong _ _ _ decidableScopeRulesSeen _ _)) (by decide +kernel)
    · exact @of_decide_eq_true _ (@instDecidableNot _ (@decidableAlong _ _ _ decidableScopeRulesSeen _ _)) (by decide +kernel)
    · exact @of_decide_eq_true _ (@instDecidableNot _ (@decidableAlong _ _ _ decidableScopeRulesSeen _ _)) (by decide +kernel)
  refine ⟨start_nothingStored, fun tr htr => ?_⟩
  have hsteps : sampleSystem.Steps nothingStored tr := by
    simp only [List.mem_cons, List.not_mem_nil, or_false] at htr
    rcases htr with rfl | rfl | rfl <;> exact steps_drive accessDriver _ _
  exact ⟨hsteps, fun h => hbroken tr htr (along_mono hseen h)⟩

end Concrete

end Transform.Access
