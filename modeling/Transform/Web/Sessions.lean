import Mathlib.Tactic.SplitIfs
import Transform.Lib.Machine
import Transform.Web.ApiClient

/-!
# Web.Sessions — one session after the other in one client

Requests, refreshes and cached reads of several sessions in flight at once.

* `reads_own_session`: along every run a call is given cached values of its own session only.
* `sessions_iff`: when no tokens of another session are sent, stored or cleared; `send` and `refresh` look at the storage
  again after each `await` and do not ask whose tokens they find.
-/

namespace Transform.Web

open Lib

variable {V : Type}

/-! ## The property -/

section Property

/-- What is watched stays in its session. -/
def Note.Good : Note → Prop
  | .sent session authorization => ∀ t ∈ authorization.token, t.session = session
  | .refreshSent session rt => rt.session = session
  | .stored session token => token.session = session
  | .cleared session current tokens => tokens ≠ [] → session = current
  | .returned session loaded => loaded = session

/-- No session bleeds into another. -/
def NoBleed (c : Client V) : Prop := ∀ n ∈ c.notes, n.Good

namespace Client

variable (c : Client V)

def MayClear (call : Call V) : Prop :=
  call.request.fetcher ≠ .authedFetch → call.session = c.session ∨ c.stored = []

/-- The session of the call goes on, or no access token is stored. -/
def MayReplay (call : Call V) : Prop := call.session = c.session ∨ truthyToken c.token = none

/-- A first 401: the refresh token is of the session that goes on; without one the call may clear. -/
def MayRefuse (call : Call V) : Prop :=
  match if call.request.refreshes then truthyToken c.refreshToken else none with
  | some rt => rt.session = c.session
  | none => c.MayClear call

/-- What the segment of a call asks of the session that goes on. -/
def CallInSession (call : Call V) : CallStage V → Answer V → Prop
  | .sent, .response status => status = 401 → c.MayRefuse call
  | .refreshBody rt, .tokens _ => rt.session = c.session
  | .refreshed true, .turn _ => c.MayReplay call
  | .refreshed false, .turn _ => c.MayClear call
  | .replayed, .response status => status = 401 → c.MayClear call
  | _, _ => True

def InSession : ClientEvent V → Prop
  | .answer i answer =>
    match c.calls i with
    | some call => c.CallInSession call call.stage answer
    | none => True
  | _ => True

end Client

end Property

/-! ## Reads -/

section Reads

variable {c : Client V} {i : ℕ} {call : Call V}

def Client.sessionOf (c : Client V) (i : ℕ) : Option ℕ := (c.calls i).map (·.session)

/-- The cache holds values and loads of the session that goes on, and calls share those of their own. -/
structure ReadsOwn (c : Client V) : Prop where
  entries : ∀ key entry, c.cache.entries key = some entry → entry.session = c.session
  inFlight : ∀ key j, c.cache.inFlight key = some j → c.sessionOf j = some c.session
  loading : ∀ i call ttlMs startedAt, c.calls i = some call → call.cached = some (ttlMs, startedAt) →
    startedAt ≤ c.cache.generation ∧ (startedAt = c.cache.generation → call.session = c.session)
  shared : ∀ i call j, c.calls i = some call → call.stage = .shared j → c.sessionOf j = some call.session
  served : ∀ i call entry, c.calls i = some call → call.stage = .served entry → entry.session = call.session

theorem readsOwn_opened (auth : Option TokenResponse) : ReadsOwn (.opened auth : Client V) where
  entries _ _ h := by cases h
  inFlight _ _ h := by cases h
  loading _ _ _ _ h := by cases h
  shared _ _ _ h := by cases h
  served _ _ _ h := by cases h

theorem ReadsOwn.invalidated {c' : Client V} (h : ReadsOwn c) (hcalls : c'.calls = c.calls)
    (hcache : c'.cache = c.cache.invalidateAll) : ReadsOwn c' where
  entries key entry he := by
    rw [hcache] at he
    cases he
  inFlight key j hj := by
    rw [hcache] at hj
    cases hj
  loading i call ttlMs startedAt hi hcached := by
    rw [hcalls] at hi
    have hle : startedAt ≤ c.cache.generation := (h.loading i call ttlMs startedAt hi hcached).1
    have hgeneration : c'.cache.generation = c.cache.generation + 1 := by rw [hcache]; rfl
    rw [hgeneration]
    exact ⟨Nat.le_succ_of_le hle, fun heq => absurd heq (by omega)⟩
  shared i call j hi hstage := by
    rw [hcalls] at hi
    rw [Client.sessionOf, hcalls]
    exact h.shared i call j hi hstage
  served i call entry hi hstage := by
    rw [hcalls] at hi
    exact h.served i call entry hi hstage

theorem sessionOf_setStage (hcall : c.calls i = some call) (stage : CallStage V) (j : ℕ) :
    (c.setStage i call stage).sessionOf j = c.sessionOf j := by
  unfold Client.sessionOf
  by_cases hj : j = i
  · subst hj
    rw [Client.setStage_self, hcall]
    rfl
  · rw [Client.setStage_of_ne _ _ hj]

/-- The stage is none of a call that waits for what another one read. -/
def CallStage.Alone : CallStage V → Prop
  | .shared _ => False
  | .served _ => False
  | _ => True

theorem ReadsOwn.setStage (h : ReadsOwn c) (hcall : c.calls i = some call) {stage : CallStage V} (hstage : stage.Alone) :
    ReadsOwn (c.setStage i call stage) where
  entries := h.entries
  inFlight key j hj := by
    rw [sessionOf_setStage hcall]
    exact h.inFlight key j hj
  loading k other ttlMs startedAt hk hcached := by
    by_cases hki : k = i
    · subst hki
      obtain rfl : { call with stage := stage } = other := by simpa using hk
      exact h.loading k call ttlMs startedAt hcall hcached
    · exact h.loading k other ttlMs startedAt (by simpa [hki] using hk) hcached
  shared k other j hk hother := by
    rw [sessionOf_setStage hcall]
    by_cases hki : k = i
    · subst hki
      obtain rfl : { call with stage := stage } = other := by simpa using hk
      obtain rfl : stage = .shared j := hother
      exact hstage.elim
    · exact h.shared k other j (by simpa [hki] using hk) hother
  served k other entry hk hother := by
    by_cases hki : k = i
    · subst hki
      obtain rfl : { call with stage := stage } = other := by simpa using hk
      obtain rfl : stage = .served entry := hother
      exact hstage.elim
    · exact h.served k other entry (by simpa [hki] using hk) hother

theorem ReadsOwn.note (h : ReadsOwn c) (n : Note) : ReadsOwn (c.note n) :=
  ⟨h.entries, h.inFlight, h.loading, h.shared, h.served⟩

theorem ReadsOwn.put (h : ReadsOwn c) (hnone : c.calls i = none) (hsession : call.session = c.session)
    (hcached : ∀ ttlMs startedAt, call.cached = some (ttlMs, startedAt) → startedAt ≤ c.cache.generation)
    (hshared : ∀ j, call.stage = .shared j → c.sessionOf j = some call.session)
    (hserved : ∀ entry, call.stage = .served entry → entry.session = call.session) :
    ReadsOwn { c with calls := Function.update c.calls i (some call) } := by
  have hsame : ∀ j n, c.sessionOf j = some n →
      Client.sessionOf { c with calls := Function.update c.calls i (some call) } j = some n := by
    intro j n hj
    have hji : j ≠ i := by
      rintro rfl
      rw [Client.sessionOf, hnone] at hj
      cases hj
    simpa [Client.sessionOf, hji] using hj
  have hcases : ∀ k other, Function.update c.calls i (some call) k = some other → other = call ∨ c.calls k = some other := by
    intro k other hk
    by_cases hki : k = i
    · subst hki
      exact .inl (by simpa using hk.symm)
    · exact .inr (by simpa [hki] using hk)
  refine ⟨h.entries, fun key j hj => hsame _ _ (h.inFlight key j hj), ?_, ?_, ?_⟩
  · intro k other ttlMs startedAt hk hc
    rcases hcases k other hk with rfl | hk
    · exact ⟨hcached ttlMs startedAt hc, fun _ => hsession⟩
    · exact h.loading k other ttlMs startedAt hk hc
  · intro k other j hk hstage
    rcases hcases k other hk with rfl | hk
    · exact hsame _ _ (hshared j hstage)
    · exact hsame _ _ (h.shared k other j hk hstage)
  · intro k other entry hk hstage
    rcases hcases k other hk with rfl | hk
    · exact hserved entry hstage
    · exact h.served k other entry hk hstage

theorem ReadsOwn.slot (h : ReadsOwn c) (hi : c.sessionOf i = some c.session) (key : String) :
    ReadsOwn { c with cache := { c.cache with inFlight := Function.update c.cache.inFlight key (some i) } } where
  entries := h.entries
  inFlight other j hj := by
    by_cases hkey : other = key
    · subst hkey
      obtain rfl : i = j := by simpa using hj
      exact hi
    · exact h.inFlight other j (by simpa [hkey] using hj)
  loading := h.loading
  shared := h.shared
  served := h.served

theorem readsOwn_load (h : ReadsOwn c) (hnone : c.calls i = none) {req : Request} {cached : Option (ℤ × ℕ)}
    (hcached : ∀ ttlMs startedAt, cached = some (ttlMs, startedAt) → startedAt ≤ c.cache.generation) :
    ReadsOwn (c.load i req cached) :=
  (h.note _).put hnone rfl hcached (fun _ h => by cases h) fun _ h => by cases h

theorem readsOwn_run (h : ReadsOwn c) (hnone : c.calls i = none) (req : Request) (ttlMs now : ℤ) :
    ReadsOwn (c.run i req ttlMs now) := by
  unfold Client.run
  cases hslot : c.cache.inFlight req.path with
  | some loader =>
    refine h.put hnone rfl (fun _ _ h => by cases h) (fun j hj => ?_) fun _ h => by cases h
    obtain rfl : loader = j := by simpa using hj
    exact h.inFlight req.path loader hslot
  | none =>
    cases hfresh : c.cache.fresh req.path ttlMs now with
    | some entry =>
      refine h.put hnone rfl (fun _ _ h => by cases h) (fun _ h => by cases h) fun e he => ?_
      obtain rfl : entry = e := by simpa using he
      exact h.entries req.path entry (Option.filter_eq_some_iff.1 hfresh).1
    | none =>
      have hload : ReadsOwn (c.load i req (some (ttlMs, c.cache.generation))) := by
        refine readsOwn_load h hnone fun ttl startedAt hc => ?_
        obtain ⟨-, rfl⟩ : ttlMs = ttl ∧ c.cache.generation = startedAt := by simpa using hc
        exact Nat.le_refl _
      exact hload.slot (by simp [Client.sessionOf, Client.load, Client.note]) req.path

/-- What follows a load. -/
theorem ReadsOwn.remember (h : ReadsOwn c) (hcall : c.calls i = some call) {ttlMs : ℤ} {startedAt : ℕ}
    (hcached : call.cached = some (ttlMs, startedAt)) (key : String) (v : Option V) (now : ℤ) :
    ReadsOwn { c with cache := c.cache.remember key ttlMs startedAt ⟨v, now, call.session⟩ } := by
  unfold RequestCache.remember
  split_ifs with hown
  · have hsession : call.session = c.session := (h.loading i call ttlMs startedAt hcall hcached).2 hown.2
    refine ⟨fun other entry he => ?_, h.inFlight, h.loading, h.shared, h.served⟩
    by_cases hkey : other = key
    · subst hkey
      obtain rfl : ⟨v, now, call.session⟩ = entry := by simpa using he
      exact hsession
    · exact h.entries other entry (by simpa [hkey] using he)
  · exact h

theorem ReadsOwn.release (h : ReadsOwn c) (key : String) (i : ℕ) :
    ReadsOwn { c with cache := c.cache.release key i } := by
  unfold RequestCache.release
  split_ifs
  · refine ⟨h.entries, fun other j hj => ?_, h.loading, h.shared, h.served⟩
    by_cases hkey : other = key
    · subst hkey
      simp at hj
    · exact h.inFlight other j (by simpa [hkey] using hj)
  · exact h

theorem readsOwn_finish (h : ReadsOwn c) (hcall : c.calls i = some call) (outcome : CallOutcome V) :
    ReadsOwn (c.finish i call outcome) := by
  unfold Client.finish
  split
  · exact h.setStage hcall trivial
  · exact h.setStage hcall trivial

theorem readsOwn_unauthorized (h : ReadsOwn c) (call : Call V) : ReadsOwn (c.unauthorized call) := by
  have hcleared : ReadsOwn (c.note (.cleared call.session c.session c.stored)).clearTokens :=
    (h.note _).invalidated rfl rfl
  exact hcleared.invalidated rfl rfl

theorem readsOwn_lastResponse (h : ReadsOwn c) (hcall : c.calls i = some call) (status : ℕ) :
    ReadsOwn (c.lastResponse i call status) := by
  have hheard : ∀ c' : Client V, c' = (if status = 401 then c.unauthorized call else c) →
      ReadsOwn c' ∧ c'.calls i = some call := by
    rintro c' rfl
    split_ifs
    · exact ⟨readsOwn_unauthorized h call, hcall⟩
    · exact ⟨h, hcall⟩
  obtain ⟨hreads, hsame⟩ := hheard _ rfl
  unfold Client.lastResponse
  split
  · exact readsOwn_finish h hcall _
  · exact readsOwn_finish hreads hsame _
  · dsimp only
    split
    · exact hreads.setStage hsame trivial
    · split
      · exact readsOwn_finish hreads hsame _
      · exact hreads.setStage hsame trivial

theorem readsOwn_settle (h : ReadsOwn c) (hcall : c.calls i = some call) (outcome : CallOutcome V) (now : ℤ) :
    ReadsOwn (c.settle i call outcome now) := by
  have hremembered : ReadsOwn (c.setStage i call (.remembered outcome)) :=
    h.setStage hcall trivial
  unfold Client.settle
  split
  · rename_i hcached
    exact hremembered.remember (Client.setStage_self ..) hcached call.request.path _ now
  · exact hremembered
  · split_ifs
    · have hempty : ReadsOwn c.invalidateCache := h.invalidated rfl rfl
      exact hempty.setStage hcall trivial
    · exact h.setStage hcall trivial
  · exact h.setStage hcall trivial

end Reads

/-! ## Segments -/

section Segments

variable {c c' c'' : Client V} {i : ℕ} {call : Call V} {asks : Prop}

/-- The stored access token is of the session that goes on, as long as nothing bled. -/
def OwnsToken (c : Client V) : Prop := NoBleed c → ∀ t ∈ c.token, t.session = c.session

/-- What every event keeps. -/
structure SessionInv (c : Client V) : Prop where
  own : OwnsToken c
  reads : ReadsOwn c

/-- One event after a state: the invariant holds again, and nothing bled exactly if what was asked of the event holds. -/
structure Segment (c : Client V) (asks : Prop) (c' : Client V) : Prop where
  inv : SessionInv c'
  noBleed : NoBleed c' ↔ NoBleed c ∧ asks

/-- Neither the access token nor what is watched changed. -/
structure Quiet (c c' : Client V) : Prop where
  token : c'.token = c.token
  session : c'.session = c.session
  notes : c'.notes = c.notes

theorem noBleed_note {n : Note} : NoBleed (c.note n) ↔ n.Good ∧ NoBleed c := List.forall_mem_cons

theorem Quiet.noBleed (h : Quiet c c') : NoBleed c' ↔ NoBleed c := by rw [NoBleed, h.notes]; rfl

theorem Quiet.own (h : Quiet c c') (hown : OwnsToken c) : OwnsToken c' := by
  intro hbleed
  rw [h.token, h.session]
  exact hown (h.noBleed.1 hbleed)

theorem Quiet.segment (h : Quiet c c') (hI : SessionInv c) (hreads : ReadsOwn c') : Segment c True c' :=
  ⟨⟨h.own hI.own, hreads⟩, h.noBleed.trans (iff_of_eq (and_true _)).symm⟩

theorem Segment.quiet (h : Segment c asks c') (hquiet : Quiet c' c'') (hreads : ReadsOwn c'') : Segment c asks c'' :=
  ⟨⟨hquiet.own h.inv.own, hreads⟩, hquiet.noBleed.trans h.noBleed⟩

theorem segment_note (hI : SessionInv c) {n : Note} (h : NoBleed c → (n.Good ↔ asks)) : Segment c asks (c.note n) := by
  have hnote : NoBleed (c.note n) ↔ NoBleed c ∧ asks := by
    rw [noBleed_note, and_comm]
    exact and_congr_right h
  exact ⟨⟨fun hbleed => hI.own (hnote.1 hbleed).1, hI.reads.note n⟩, hnote⟩

theorem quiet_setStage (c : Client V) (i : ℕ) (call : Call V) (stage : CallStage V) : Quiet c (c.setStage i call stage) :=
  ⟨rfl, rfl, rfl⟩

theorem quiet_finish (c : Client V) (i : ℕ) (call : Call V) (outcome : CallOutcome V) :
    Quiet c (c.finish i call outcome) := by
  unfold Client.finish
  split
  · exact quiet_setStage ..
  · exact quiet_setStage ..

theorem segment_setStage (hI : SessionInv c) (hcall : c.calls i = some call) {stage : CallStage V} (hstage : stage.Alone) :
    Segment c True (c.setStage i call stage) :=
  (quiet_setStage ..).segment hI (hI.reads.setStage hcall hstage)

theorem segment_finish (hI : SessionInv c) (hcall : c.calls i = some call) (outcome : CallOutcome V) :
    Segment c True (c.finish i call outcome) :=
  (quiet_finish ..).segment hI (readsOwn_finish hI.reads hcall outcome)

theorem segment_unauthorized (hI : SessionInv c) (call : Call V) :
    Segment c (call.session = c.session ∨ c.stored = []) (c.unauthorized call) := by
  have hgood : (Note.cleared call.session c.session c.stored).Good ↔ call.session = c.session ∨ c.stored = [] := by
    unfold Note.Good
    rw [or_comm, or_iff_not_imp_left]
  have hnote := segment_note hI fun _ => hgood
  have hown : OwnsToken (c.unauthorized call) := by
    intro _ t ht
    cases ht
  exact ⟨⟨hown, readsOwn_unauthorized hI.reads call⟩, hnote.noBleed⟩

theorem quiet_lastResponse (hfetcher : call.request.fetcher ≠ .authedFetch) (status : ℕ) :
    Quiet (if status = 401 then c.unauthorized call else c) (c.lastResponse i call status) := by
  unfold Client.lastResponse
  generalize (if status = 401 then c.unauthorized call else c) = heard
  split
  · contradiction
  · exact quiet_finish ..
  · dsimp only
    split
    · exact quiet_setStage ..
    · split
      · exact quiet_finish ..
      · exact quiet_setStage ..

theorem segment_lastResponse (hI : SessionInv c) (hcall : c.calls i = some call) (status : ℕ) :
    Segment c (status = 401 → c.MayClear call) (c.lastResponse i call status) := by
  have hreads := readsOwn_lastResponse hI.reads hcall status
  by_cases hfetcher : call.request.fetcher = .authedFetch
  · have hasks : (status = 401 → c.MayClear call) ↔ True := iff_true_intro fun _ h => absurd hfetcher h
    rw [hasks]
    have heq : c.lastResponse i call status = c.finish i call (.response status) := by
      unfold Client.lastResponse
      rw [hfetcher]
    rw [heq]
    exact segment_finish hI hcall _
  · have hquiet := @quiet_lastResponse _ c i call hfetcher status
    have hmay : c.MayClear call ↔ call.session = c.session ∨ c.stored = [] := ⟨fun h => h hfetcher, fun h _ => h⟩
    rw [hmay]
    by_cases hstatus : status = 401
    · rw [if_pos hstatus] at hquiet
      rw [imp_iff_right hstatus]
      exact (segment_unauthorized hI call).quiet hquiet hreads
    · rw [if_neg hstatus] at hquiet
      rw [iff_true_intro fun h => absurd h hstatus]
      exact hquiet.segment hI hreads

theorem segment_firstResponse (hI : SessionInv c) (hcall : c.calls i = some call) (status : ℕ) :
    Segment c (status = 401 → c.MayRefuse call) (c.firstResponse i call status) := by
  have hlast := segment_lastResponse hI hcall status
  unfold Client.firstResponse Client.MayRefuse
  by_cases h : status = 401 ∧ call.request.refreshes
  · rw [if_pos h, if_pos h.2, imp_iff_right h.1]
    cases hrt : truthyToken c.refreshToken with
    | some rt =>
      have hsent : Segment c (rt.session = c.session) (c.note (.refreshSent c.session rt)) := segment_note hI fun _ => Iff.rfl
      exact hsent.quiet (quiet_setStage ..) (hsent.inv.reads.setStage hcall trivial)
    | none => exact (by rwa [imp_iff_right h.1] at hlast)
  · rw [if_neg h]
    by_cases hstatus : status = 401
    · rw [if_neg fun hr => h ⟨hstatus, hr⟩]
      exact hlast
    · rw [iff_true_intro fun h => absurd h hstatus] at hlast ⊢
      exact hlast

theorem segment_storeRefreshed (hI : SessionInv c) (hcall : c.calls i = some call) (rt : AuthToken) (auth : TokenResponse) :
    Segment c (rt.session = c.session) ((c.storeRefreshed rt auth).setStage i call (.refreshed true)) := by
  have hnote : NoBleed (c.storeRefreshed rt auth) ↔ NoBleed c ∧ rt.session = c.session := by
    rw [and_comm]
    exact noBleed_note
  have hown : OwnsToken (c.storeRefreshed rt auth) := by
    intro hbleed t ht
    obtain rfl : ⟨rt.session, auth.accessToken⟩ = t := Option.some.inj ht
    exact (hnote.1 hbleed).2
  have hreads : ReadsOwn (c.storeRefreshed rt auth) := (hI.reads.note _).invalidated rfl rfl
  have hstored : Segment c (rt.session = c.session) (c.storeRefreshed rt auth) := ⟨⟨hown, hreads⟩, hnote⟩
  exact hstored.quiet (quiet_setStage ..) (hreads.setStage hcall trivial)

theorem truthyToken_own (hown : ∀ t ∈ c.token, t.session = c.session) : ∀ t ∈ truthyToken c.token, t.session = c.session :=
  fun t ht => hown t (Option.filter_eq_some_iff.1 ht).1

theorem authorization_token (c : Client V) : c.authorization.token = truthyToken c.token := by
  unfold Client.authorization
  cases h : truthyToken c.token with
  | none => rfl
  | some t =>
    have hfilter : truthyToken (some t) = some t := Option.filter_eq_some_iff.2 ⟨rfl, (Option.filter_eq_some_iff.1 h).2⟩
    exact hfilter

theorem replayAuthorization_token (c : Client V) (fetcher : Fetcher) :
    (c.replayAuthorization fetcher).token = truthyToken c.token := by
  cases fetcher with
  | send => rfl
  | _ => exact authorization_token c

theorem good_sent {session : ℕ} {authorization : Authorization} :
    (Note.sent session authorization).Good ↔ ∀ t ∈ authorization.token, t.session = session := Iff.rfl

theorem segment_replay (hI : SessionInv c) (hcall : c.calls i = some call) :
    Segment c (c.MayReplay call) (c.replay i call) := by
  have hsent : Segment c (c.MayReplay call)
      (c.note (.sent call.session (c.replayAuthorization call.request.fetcher))) := by
    refine segment_note hI fun hbleed => ?_
    unfold Client.MayReplay
    rw [good_sent, replayAuthorization_token]
    have hown := truthyToken_own (hI.own hbleed)
    cases htoken : truthyToken c.token with
    | none => simp
    | some t =>
      have ht : t.session = c.session := hown t htoken
      simp [ht, eq_comm]
  exact hsent.quiet (quiet_setStage ..) (hsent.inv.reads.setStage hcall trivial)

theorem segment_load (hI : SessionInv c) (hnone : c.calls i = none) {req : Request} {cached : Option (ℤ × ℕ)}
    (hcached : ∀ ttlMs startedAt, cached = some (ttlMs, startedAt) → startedAt ≤ c.cache.generation) :
    Segment c True (c.load i req cached) := by
  have hsent : Segment c True (c.note (.sent c.session c.authorization)) := by
    refine segment_note hI fun hbleed => iff_true_intro ?_
    rw [good_sent, authorization_token]
    exact truthyToken_own (hI.own hbleed)
  exact hsent.quiet ⟨rfl, rfl, rfl⟩ (readsOwn_load hI.reads hnone hcached)

theorem quiet_run (c : Client V) (i : ℕ) (req : Request) (ttlMs now : ℤ) :
    Quiet c (c.run i req ttlMs now) ∨ Quiet (c.load i req (some (ttlMs, c.cache.generation))) (c.run i req ttlMs now) := by
  unfold Client.run
  split
  · exact .inl ⟨rfl, rfl, rfl⟩
  · split
    · exact .inl ⟨rfl, rfl, rfl⟩
    · exact .inr ⟨rfl, rfl, rfl⟩

theorem segment_run (hI : SessionInv c) (hnone : c.calls i = none) (req : Request) (ttlMs now : ℤ) :
    Segment c True (c.run i req ttlMs now) := by
  have hreads := readsOwn_run hI.reads hnone req ttlMs now
  rcases quiet_run c i req ttlMs now with hquiet | hquiet
  · exact hquiet.segment hI hreads
  · refine (segment_load hI hnone fun ttl startedAt hc => ?_).quiet hquiet hreads
    obtain ⟨-, rfl⟩ : ttlMs = ttl ∧ c.cache.generation = startedAt := by simpa using hc
    exact Nat.le_refl _

theorem segment_start (hI : SessionInv c) (hnone : c.calls i = none) (req : Request) (now : ℤ) :
    Segment c True (c.start i req now) := by
  have hload : Segment c True (c.load i req none) := segment_load hI hnone fun _ _ h => by cases h
  unfold Client.start
  split
  · split_ifs
    · exact segment_run hI hnone req _ now
    · exact hload
  · exact hload

theorem segment_settle (hI : SessionInv c) (hcall : c.calls i = some call) (outcome : CallOutcome V) (now : ℤ) :
    Segment c True (c.settle i call outcome now) := by
  have hquiet : Quiet c (c.settle i call outcome now) := by
    unfold Client.settle
    split
    · exact ⟨rfl, rfl, rfl⟩
    · exact ⟨rfl, rfl, rfl⟩
    · split_ifs
      · exact ⟨rfl, rfl, rfl⟩
      · exact ⟨rfl, rfl, rfl⟩
    · exact ⟨rfl, rfl, rfl⟩
  exact hquiet.segment hI (readsOwn_settle hI.reads hcall outcome now)

theorem segment_release (hI : SessionInv c) (hcall : c.calls i = some call) (outcome : CallOutcome V) :
    Segment c True (c.release i call outcome) := by
  have hreturned := segment_setStage hI hcall (show CallStage.Alone (.returned outcome) from trivial)
  exact hreturned.quiet ⟨rfl, rfl, rfl⟩ (hreturned.inv.reads.release call.request.path i)

theorem segment_served (hI : SessionInv c) (hcall : c.calls i = some call) {entry : CacheEntry V}
    (hstage : call.stage = .served entry) :
    Segment c True ((c.note (.returned call.session entry.session)).setStage i call (.returned (.value entry.value))) := by
  have hgood : (Note.returned call.session entry.session).Good := hI.reads.served i call entry hcall hstage
  have hnote := segment_note hI fun _ => iff_true_intro hgood
  exact hnote.quiet (quiet_setStage ..) (hnote.inv.reads.setStage hcall trivial)

theorem segment_join (hI : SessionInv c) (hcall : c.calls i = some call) {loader : ℕ} (hstage : call.stage = .shared loader)
    (hjoin : c.join i call loader = some c') : Segment c True c' := by
  unfold Client.join at hjoin
  cases hloading : c.calls loader with
  | none => simp [hloading] at hjoin
  | some loading =>
    have hsession : loading.session = call.session := by
      have h := hI.reads.shared i call loader hcall hstage
      rw [Client.sessionOf, hloading] at h
      exact Option.some.inj h
    have hgood : (Note.returned call.session loading.session).Good := hsession
    have hnote := segment_note hI fun _ => iff_true_intro hgood
    cases hloaded : loading.stage with
    | returned outcome =>
      simp only [hloading, hloaded, Option.some.injEq] at hjoin
      subst hjoin
      exact hnote.quiet (quiet_setStage ..) (hnote.inv.reads.setStage hcall trivial)
    | _ => simp [hloading, hloaded] at hjoin

theorem segment_advance (hI : SessionInv c) (hcall : c.calls i = some call) {answer : Answer V}
    (h : c.advance i call call.stage answer = some c') : Segment c (c.CallInSession call call.stage answer) c' := by
  have hset : ∀ {stage}, CallStage.Alone stage → Segment c True (c.setStage i call stage) := segment_setStage hI hcall
  have hfinish : ∀ outcome, Segment c True (c.finish i call outcome) := segment_finish hI hcall
  have hlast : ∀ status, Segment c (status = 401 → c.MayClear call) (c.lastResponse i call status) :=
    segment_lastResponse hI hcall
  generalize hstage : call.stage = stage at h
  unfold Client.advance at h
  split at h
  case h_17 => exact segment_join hI hcall hstage h
  all_goals cases h
  · exact segment_firstResponse hI hcall _
  · exact hfinish _
  · refine hset ?_
    split
    · trivial
    · trivial
  · exact hset trivial
  · exact segment_storeRefreshed hI hcall _ _
  · exact hset trivial
  · exact segment_replay hI hcall
  · have h401 := hlast 401
    rwa [imp_iff_right rfl] at h401
  · exact hlast _
  · exact hfinish _
  · exact hfinish _
  · exact hfinish _
  · exact hfinish _
  · exact hfinish _
  · exact segment_settle hI hcall _ _
  · exact segment_release hI hcall _
  · exact segment_served hI hcall hstage

theorem segment_step (hI : SessionInv c) {e : ClientEvent V} (h : c.step e = some c') : Segment c (c.InSession e) c' := by
  cases e with
  | signIn auth =>
    obtain rfl := Option.some.inj h
    have hown : OwnsToken (c.signIn auth) := by
      intro _ t ht
      obtain rfl : ⟨c.session + 1, auth.accessToken⟩ = t := Option.some.inj ht
      rfl
    exact ⟨⟨hown, hI.reads.invalidated rfl rfl⟩, (iff_of_eq (and_true _)).symm⟩
  | signOut =>
    obtain rfl := Option.some.inj h
    have hown : OwnsToken c.signOut := by
      intro _ t ht
      cases ht
    exact ⟨⟨hown, hI.reads.invalidated rfl rfl⟩, (iff_of_eq (and_true _)).symm⟩
  | invalidateCache =>
    obtain rfl := Option.some.inj h
    have hquiet : Quiet c c.invalidateCache := ⟨rfl, rfl, rfl⟩
    exact hquiet.segment hI (hI.reads.invalidated rfl rfl)
  | start i req now =>
    simp only [Client.step, Option.isNone_iff_eq_none] at h
    split_ifs at h with hnone
    obtain rfl := Option.some.inj h
    exact segment_start hI hnone req now
  | answer i answer =>
    simp only [Client.step] at h
    simp only [Client.InSession]
    cases hcall : c.calls i with
    | none => simp [hcall] at h
    | some call =>
      simp only [hcall] at h
      exact segment_advance hI hcall h

end Segments

/-! ## Runs -/

section Runs

theorem sessionInv_opened (auth : Option TokenResponse) : SessionInv (.opened auth : Client V) := by
  refine ⟨fun _ t ht => ?_, readsOwn_opened auth⟩
  obtain ⟨a, -, rfl⟩ := Option.map_eq_some_iff.1 ht
  rfl

/-- **Cached reads stay in their session**, in every run. -/
theorem reads_own_session {auth : Option TokenResponse} {tr : List (ClientEvent V × Client V)}
    (hpath : Path Client.step (.opened auth) tr) : Throughout (fun _ _ c' => ReadsOwn c') (.opened auth) tr := by
  refine throughout_of_inv (fun c e c' hI h => ?_) (sessionInv_opened auth) hpath
  have hinv : SessionInv c' := (segment_step hI h).inv
  exact ⟨hinv, hinv.reads⟩

/-- **Sessions stay apart** exactly in the runs in which a replay and a final 401 find the session of their request, or
nothing stored, a refresh is answered in the session it was sent in, and it is sent with that session's refresh token. -/
theorem sessions_iff {auth : Option TokenResponse} {tr : List (ClientEvent V × Client V)}
    (hpath : Path Client.step (.opened auth) tr) :
    Throughout (fun _ _ c' => NoBleed c') (.opened auth) tr ↔
      Throughout (fun c e _ => c.InSession e) (.opened auth) tr := by
  refine throughout_iff (fun c e c' hI h => (segment_step hI h).inv) (fun c e c' hI hbleed h => ?_)
    (sessionInv_opened auth) (fun n hn => by cases hn) hpath
  rw [(segment_step hI h).noBleed, and_iff_right hbleed]

end Runs

/-! ## Concrete runs -/

section Concrete

def aliceTokens : TokenResponse := ⟨"a1", some "r1"⟩

def aliceRefreshed : TokenResponse := ⟨"a2", some "r2"⟩

def bobTokens : TokenResponse := ⟨"b1", some "s1"⟩

/-- A request is refused, refreshed and replayed. -/
def refreshedInTime : List (ClientEvent String) :=
  [.start 0 { path := "/v1/files" } 0, .answer 0 (.response 401), .answer 0 (.response 200),
    .answer 0 (.tokens aliceRefreshed), .answer 0 (.turn 0), .answer 0 (.response 200), .answer 0 (.json "files")]

def storedAfterSignOut : List (ClientEvent String) :=
  [.start 0 { path := "/v1/files" } 0, .answer 0 (.response 401), .signOut, .answer 0 (.response 200),
    .answer 0 (.tokens aliceRefreshed)]

/-- The request of one user is replayed with the token of the next. -/
def replayedForAnother : List (ClientEvent String) :=
  [.start 0 { path := "/v1/files" } 0, .signOut, .signIn bobTokens, .answer 0 (.response 401), .answer 0 (.response 200),
    .answer 0 (.tokens ⟨"b2", some "s2"⟩), .answer 0 (.turn 0)]

/-- The refresh of one user fails, and the tokens of the next are cleared. -/
def clearedForAnother : List (ClientEvent String) :=
  [.start 0 { path := "/v1/files" } 0, .answer 0 (.response 401), .signOut, .signIn bobTokens, .answer 0 (.response 401),
    .answer 0 (.turn 0)]

instance decidableGood : DecidablePred Note.Good := fun n => by
  cases n with
  | sent session authorization => exact inferInstanceAs (Decidable (∀ t ∈ authorization.token, t.session = session))
  | refreshSent session rt => exact Nat.decEq rt.session session
  | stored session token => exact Nat.decEq token.session session
  | cleared session current tokens => exact inferInstanceAs (Decidable (tokens ≠ [] → session = current))
  | returned session loaded => exact Nat.decEq loaded session

instance decidableNoBleed (c : Client V) : Decidable (NoBleed c) := inferInstanceAs (Decidable (∀ n ∈ c.notes, n.Good))

instance decidableMayClear (c : Client V) (call : Call V) : Decidable (c.MayClear call) :=
  inferInstanceAs (Decidable (call.request.fetcher ≠ .authedFetch → call.session = c.session ∨ c.stored = []))

instance decidableMayReplay (c : Client V) (call : Call V) : Decidable (c.MayReplay call) :=
  inferInstanceAs (Decidable (call.session = c.session ∨ truthyToken c.token = none))

instance decidableMayRefuse (c : Client V) (call : Call V) : Decidable (c.MayRefuse call) := by
  unfold Client.MayRefuse
  split
  · infer_instance
  · infer_instance

instance decidableCallInSession (c : Client V) (call : Call V) (stage : CallStage V) (answer : Answer V) :
    Decidable (c.CallInSession call stage answer) := by
  unfold Client.CallInSession
  split
  all_goals infer_instance

instance decidableInSession (c : Client V) (e : ClientEvent V) : Decidable (c.InSession e) := by
  unfold Client.InSession
  split
  · split
    · infer_instance
    · infer_instance
  · infer_instance

theorem reads_own_session_refreshed : Throughout (fun _ _ c' => ReadsOwn c') (.opened (some aliceTokens) : Client String)
    (trace Client.step (.opened (some aliceTokens)) refreshedInTime) := reads_own_session (path_trace _ _)

/-- Nothing bleeds as the events happen on the page of the first user. -/
def StaysApart (events : List (ClientEvent String)) : Prop :=
  Throughout (fun _ _ c' => NoBleed c') (.opened (some aliceTokens)) (trace Client.step (.opened (some aliceTokens)) events)

instance decidableStaysApart : DecidablePred StaysApart := fun _ => decidableThroughout _ _

/-- A refresh within its session. -/
theorem sessions_iff_refreshed : StaysApart refreshedInTime := (sessions_iff (path_trace _ _)).2 (by decide +kernel)

/-- Tokens are stored again, sent and cleared in a session that they do not belong to. -/
theorem sessions_bleed : ¬ StaysApart storedAfterSignOut ∧ ¬ StaysApart replayedForAnother ∧ ¬ StaysApart clearedForAnother := by
  decide +kernel

end Concrete

end Transform.Web
