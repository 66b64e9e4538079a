import Mathlib.Data.Set.Function
import Transform.Access.Tables

/-!
# Access.Authority — an accepted access token stays within the live consent

The tables are reached by any interleaving of calls; `loadAccessToken` is then one call of a sequence, with no statement
of another between its own (`alone`).  `access_within_consent` says what a record it returns stands for.
-/

namespace Transform.Access

open Lib Conversions

variable {ctx : AccessContext} {w : AccessWorld} {i : ℕ} {party : AccessParty}

section Authority

/-- A call by itself: the tables answer it, and change with it only. -/
def alone (ctx : AccessContext) (i : ℕ) (party : AccessParty) : Monitor AccessSig AccessWorld where
  pre _ _ := True
  rely w ev := w.Allowed ctx ev
  step w ev := w.apply ctx i party ev

/-- What stands behind the record of a token: the row of the token, which has not ended, and the row of its grant, which
is active, of the subject, and has every scope of the token. -/
structure Authorized (ctx : AccessContext) (w : AccessWorld) (now : Instant) (tokenHash : String)
    (record : TokenRecord) : Prop where
  access : record.kind = .access
  stored : ∃ row, w.tokens tokenHash = some row ∧ row.toToken = record ∧ row.revokedAt = none ∧ now < row.expiresAt
  grant : ∃ row, w.grants record.grantId = some row ∧ row.status = .active ∧ row.userId.repr = record.subject ∧
    ∀ scope ∈ record.scopes, scope ∈ normalizeScopes row.scopes
  resource : record.resource = some ctx.resource

theorem checkGrant_alone {row : TokenRow} {w' : AccessWorld} {now : Instant} {tokenHash : String} (hI : TablesInv ctx w)
    (hgrants : w'.grants = w.grants) (hread : w'.read i = now) (hrow : w.tokens tokenHash = some row)
    (husable : row.toToken.Usable ctx now) :
    wpe (alone ctx i party) (checkGrant row.toToken now)
      (fun found w'' => ∀ record, found = some record → Authorized ctx w (w''.read i) tokenHash record)
      (fun _ _ => True) w' := by
  obtain ⟨haccess, hlive, hunexpired, -⟩ := husable
  unfold checkGrant
  rw [wpe_bind]
  refine wpe_ask.2 ⟨trivial, fun found hfound => ?_, fun _ _ _ _ => trivial⟩
  rcases found with _ | grant
  · rintro record h
    cases h
  · have hgrant : some grant = w'.grants row.toToken.grantId := hfound
    rw [hgrants] at hgrant
    dsimp only
    split_ifs with hrefused
    · rintro record h
      cases h
    · obtain ⟨hactive, hsubset⟩ : grant.toGrant.isActive = true ∧
          isSubset row.toToken.scopes grant.toGrant.scopes = true := by
        simpa [not_or] using hrefused
      have hstatus : grant.status = .active := by
        have h := hactive
        unfold AgentGrant.isActive at h
        rw [Bool.and_eq_true] at h
        exact of_decide_eq_true h.1
      obtain ⟨-, hresource, ⟨grant', hgrant', hsubject⟩, -⟩ := hI.token _ _ hrow
      obtain rfl : grant' = grant := Option.some.inj (hgrant'.symm.trans hgrant.symm)
      have hauthorized : Authorized ctx w now tokenHash row.toToken :=
        ⟨haccess, ⟨row, hrow, rfl, hlive, hunexpired⟩,
          ⟨grant', hgrant', hstatus, hsubject.symm, isSubset_iff.1 hsubset⟩, hresource⟩
      rw [← hread] at hauthorized
      rw [wpe_bind]
      unfold touchStale
      split
      · refine wpe_ask.2 ⟨trivial, fun _ _ => ?_, fun _ _ _ _ => trivial⟩
        rintro record h
        cases h
        exact hauthorized
      · split_ifs
        · refine wpe_ask.2 ⟨trivial, fun _ _ => ?_, fun _ _ _ _ => trivial⟩
          rintro record h
          cases h
          exact hauthorized
        · rintro record h
          cases h
          exact hauthorized

theorem loadAccessToken_alone {t : String} (hI : TablesInv ctx w) :
    wpe (alone ctx i party) (loadAccessToken ctx t)
      (fun found w' => ∀ record, found = some record → Authorized ctx w (w'.read i) (ctx.hashSecret t) record)
      (fun _ _ => True) w := by
  unfold loadAccessToken
  rw [wpe_bind]
  refine wpe_ask.2 ⟨trivial, fun now _ => ?_, fun _ _ _ _ => trivial⟩
  rw [wpe_bind]
  refine wpe_ask.2 ⟨trivial, fun found hfound => ?_, fun _ _ _ _ => trivial⟩
  rcases found with _ | row
  · rintro record h
    cases h
  · have hrow : some row = w.tokens (ctx.hashSecret t) := hfound
    dsimp only
    split_ifs with husable
    · exact checkGrant_alone hI rfl (Function.update_self ..) hrow.symm husable
    · rintro record h
      cases h

/-- **Access within consent**: after any calls, in any interleaving, a token that `loadAccessToken` resolves to a record
was issued as an access token of the record's grant, is neither revoked nor expired, and is this server's; its grant is
active and the subject's, and has every scope of the token. -/
theorem access_within_consent {c : (accessSystem ctx).Config}
    {tr : List ((accessSystem ctx).Label × (accessSystem ctx).Config)} (hc : AccessStart c)
    (hs : (accessSystem ctx).Steps c tr) {t : String} {record : TokenRecord} {exchanges : List (Event AccessSig)}
    (hrun : Run (loadAccessToken ctx t).run exchanges (.ok (some record)))
    (hanswers : (alone ctx i party).Relied (lastConfig c tr).world exchanges)
    (hinj : Set.InjOn ctx.hashSecret
      (insert t {secret | ∃ kind grantId, (secret, kind, grantId) ∈ AccessWorld.issued (lastConfig c tr).world})) :
    (t, .access, record.grantId) ∈ AccessWorld.issued (lastConfig c tr).world ∧
      Authorized ctx (lastConfig c tr).world (AccessWorld.read (exchanges.foldl (alone ctx i party).step (lastConfig c tr).world) i)
        (ctx.hashSecret t) record := by
  have hinv : (accessSystem ctx).Inv (TablesInv ctx) (Sys.Thread (accessMonitor ctx) fun w i party g => g.Borne w i party)
      (lastConfig c tr) := watched_last tables_watched (watched_start hc.1 (tablesInv_start hc)) hs
  have hauthorized := wp_run (loadAccessToken_alone hinv.1) hrun hanswers record rfl
  refine ⟨?_, hauthorized⟩
  obtain ⟨row, hrow, rfl, -⟩ := hauthorized.stored
  obtain ⟨-, -, -, secret, hsecret, hissued⟩ := hinv.1.token _ _ hrow
  obtain rfl : secret = t := hinj (.inr ⟨_, _, hissued⟩) (.inl rfl) hsecret
  have haccess : row.kind = .access := hauthorized.access
  rwa [haccess] at hissued

end Authority

/-! ## A run -/

section Concrete

def sampleDigests : List (String × String) := [
  ("secret-1", "f7e7c36e458e80e6b6a2c67d0a9ec09bd718dadd7bfa8d6bf6e7ad526e46c2f7"),
  ("secret-2", "f4b6bb6548129dacf11c1a9c4dffffefd4aa6b21fcf4e9754cc03b731cbe7c25"),
  ("secret-3", "2c7d3470d617514ede9f8b07e2912811351e6efe42cdc07b661a790b6659d486"),
  ("secret-4", "d39225619c70a7b0201807b500bdcdaeb6e5ac5159ec4394be08a2b5d69935aa"),
  ("secret-5", "13fcafbc1101c067589db9133dbbcfc0ee8a5a9f919653869dd58aef345562da"),
  ("secret-6", "72f908876221bcf204a26ce7e81a47f3c40c090205978ebc238cf75cac9bbd3b"),
  ("secret-7", "214a3aa0e5d5069f5f6c64f88da6461e601d803f7b3098f57c4fd5c4bf1ee3ad"),
  ("secret-8", "699021cd1b3fb91bdb7361649b9a6cb965206b23b202cdce087e29c57ae6f565")]

def sampleClient : OAuthClientRecord where
  clientId := "app"
  clientName := some "App"
  redirectUris := ["https://app.example/callback"]

/-- A server that grants no deletion, with one client, which registered for no scopes. -/
def sampleAccess : AccessContext where
  clients clientId := if clientId = "app" then some sampleClient else none
  resourceUrl := "https://api.example/mcp"
  grantable := defaultScopes
  hashSecret secret := (sampleDigests.lookup secret).getD ""
  repr resource := resource.getD "None"

abbrev sampleSystem : Sys AccessSig := accessSystem sampleAccess

/-- A secret that nothing is stored under. -/
def freshSecret (w : AccessWorld) : String :=
  ((sampleDigests.find? fun entry => (w.codes entry.2).isNone && (w.tokens entry.2).isNone).map (·.1)).getD ""

/-- An INSERT, which a key may refuse. -/
def insertReply (free : Bool) : Except AccessError Unit := if free then .ok () else .error ⟨"IntegrityError", "", ""⟩

/-- Every call answers. -/
def accessReply (w : AccessWorld) : (op : AccessOp) → Except AccessError op.Ans
  | .now => .ok w.clock
  | .uuid4 => .ok "grant-1"
  | .tokenUrlsafe => .ok (freshSecret w)
  | .getClient clientId => .ok (sampleAccess.clients clientId)
  | .selectGrant userId clientId => .ok (w.selectGrant userId clientId)
  | .selectOwned grantId userId => .ok (w.selectOwned grantId userId)
  | .getGrant grantId => .ok (w.grants grantId)
  | .takeCode codeHash now => .ok ((w.redeemable codeHash now).map fun row => { row with usedAt := some now })
  | .getToken tokenHash => .ok (w.tokens tokenHash)
  | .revokeTokensForGrant _ _ => .ok (0 : ℕ)
  | .insertGrant row => insertReply (w.grants row.id = none ∧ w.index row.userId row.clientId = none)
  | .insertCode row => insertReply (w.codes row.codeHash = none)
  | .insertToken row => insertReply (w.tokens row.tokenHash = none)
  | .updateGrant _ _ | .touchGrant _ _ | .revokeToken _ _ | .respond _ => .ok ()

theorem accessReply_allowed (w : AccessWorld) (op : AccessOp) :
    w.Allowed sampleAccess (.answered op (accessReply w op)) := by
  cases op with
  | insertGrant row =>
    by_cases hfree : w.grants row.id = none ∧ w.index row.userId row.clientId = none
    · rw [accessReply, insertReply, if_pos (decide_eq_true hfree)]
      exact fun _ => hfree
    · rw [accessReply, insertReply, if_neg (by simpa using hfree)]
      exact fun h => (by cases h)
  | insertCode row =>
    by_cases hfree : w.codes row.codeHash = none
    · rw [accessReply, insertReply, if_pos (decide_eq_true hfree)]
      exact fun _ => hfree
    · rw [accessReply, insertReply, if_neg (by simpa using hfree)]
      exact fun h => (by cases h)
  | insertToken row =>
    by_cases hfree : w.tokens row.tokenHash = none
    · rw [accessReply, insertReply, if_pos (decide_eq_true hfree)]
      exact fun _ => hfree
    · rw [accessReply, insertReply, if_neg (by simpa using hfree)]
      exact fun h => (by cases h)
  | getClient _ => rfl
  | selectGrant _ _ => rfl
  | selectOwned _ _ => rfl
  | getGrant _ => rfl
  | takeCode _ _ => rfl
  | getToken _ => rfl
  | _ => trivial

def accessDriver : sampleSystem.Driver where
  reply := accessReply
  check w _ _ ev := @decide _ (AccessWorld.decidableAllowed sampleAccess w ev)
  sound h := @of_decide_eq_true _ (AccessWorld.decidableAllowed sampleAccess _ _) h

def startCall (party : AccessParty) (i : ℕ) : sampleSystem.Starter i where
  start w := some (party, party.program sampleAccess, AccessWorld.enter w i)
  sound h := by
    cases h
    exact ⟨rfl, rfl⟩

/-- The next calls of thread `i`. -/
def accessTurns (i : ℕ) : ℕ → List sampleSystem.Move
  | 0 => []
  | n + 1 => .go i :: accessTurns i n

/-- A call that runs to its end. -/
def wholeCall (party : AccessParty) (i n : ℕ) : List sampleSystem.Move := .start i (startCall party i) :: accessTurns i n

def nothingStored : sampleSystem.Config := ⟨({} : AccessWorld), fun _ => none⟩

theorem start_nothingStored : AccessStart nothingStored := ⟨fun _ => rfl, 0, rfl⟩

def sampleRun (moves : List sampleSystem.Move) : List (sampleSystem.Label × sampleSystem.Config) :=
  Sys.drive accessDriver nothingStored moves

def sampleConsent : ApproveRequest where
  userId := 7
  clientId := "app"
  redirectUri := "https://app.example/callback"
  codeChallenge := "challenge"

def consentAndRedeem : List (sampleSystem.Label × sampleSystem.Config) :=
  sampleRun (wholeCall (.approve sampleConsent) 0 9 ++
    wholeCall (.exchangeCode { clientId := "app", code := "secret-1" }) 1 8)

def loadedWorld : AccessWorld := (lastConfig nothingStored consentAndRedeem).world

def loadIssued : List (Event AccessSig) × Except AccessError (Option TokenRecord) :=
  (loadAccessToken sampleAccess "secret-2").run.play
    ⟨accessReply, fun w ev => w.apply sampleAccess 2 (.loadAccessToken "secret-2") ev⟩ loadedWorld

theorem access_within_consent_issued : ∃ record, loadIssued.2 = .ok (some record) ∧
    ("secret-2", .access, record.grantId) ∈ loadedWorld.issued := by
  obtain ⟨hresolved, hissued⟩ : loadIssued.2.toOption.join.isSome = true ∧
      loadedWorld.issued = [("secret-3", .refresh, "grant-1"), ("secret-2", .access, "grant-1")] := by decide +kernel
  obtain ⟨record, hrecord⟩ : ∃ record, loadIssued.2 = .ok (some record) := by
    rcases h : loadIssued.2 with e | (_ | record)
    · rw [h] at hresolved
      cases hresolved
    · rw [h] at hresolved
      cases hresolved
    · exact ⟨record, rfl⟩
  have hrun : Run (loadAccessToken sampleAccess "secret-2").run loadIssued.1 (.ok (some record)) := by
    rw [← hrecord]
    exact run_play _ _ _
  have hinj : Set.InjOn sampleAccess.hashSecret
      (insert "secret-2" {secret | ∃ kind grantId, (secret, kind, grantId) ∈ loadedWorld.issued}) := by
    have hone : ∀ secret ∈ insert "secret-2" {secret | ∃ kind grantId, (secret, kind, grantId) ∈ loadedWorld.issued},
        secret = "secret-2" ∨ secret = "secret-3" := by
      rintro secret (h | ⟨kind, grantId, h⟩)
      · exact .inl h
      · rw [hissued] at h
        simp only [List.mem_cons, Prod.mk.injEq, List.not_mem_nil, or_false] at h
        exact (h.imp (·.1) (·.1)).symm
    intro a ha b hb hab
    rcases hone a ha with rfl | rfl <;> rcases hone b hb with rfl | rfl
    · rfl
    · exact absurd hab (by decide)
    · exact absurd hab (by decide)
    · rfl
  have h := access_within_consent start_nothingStored (steps_drive accessDriver _ _) hrun
    (relied_play rfl (fun w op => accessReply_allowed w op) _ _) hinj
  exact ⟨record, hrecord, h.1⟩

end Concrete

end Transform.Access
