import Mathlib.Data.Int.Notation
import Mathlib.Data.Nat.Notation
import Mathlib.Logic.Function.Basic

/-!
# Web.ApiClient — requests, silent refreshes and cached reads

The HTTP client of the browser and its read cache.  A request runs from one `await` to the next; between two of them the
tokens in the storage and the cache may change under it.  Every call keeps what it waits for, and `step` takes one event:
the answer that a call waited for, a new call, a sign-in or a sign-out.

Sessions are numbered as they begin.  A token, a call and a cached value carry the number of theirs, and `notes` keeps
which tokens were sent, stored and cleared, and which cached values were returned; the client reads none of this.
The text that an error is shown with is left out.
-/

namespace Transform.Web

/-! ## Tokens -/

section Tokens

structure AuthToken where
  session : ℕ
  text : String
  deriving DecidableEq

/-- What a sign-in or a refresh answers; an access token that is missing is empty. -/
structure TokenResponse where
  accessToken : String
  refreshToken : Option String

/-- A stored token as a condition reads it: an empty one is none. -/
def truthyToken (token : Option AuthToken) : Option AuthToken := token.filter fun t => t.text ≠ ""

/-- The `Authorization` header; without a token it reads `Bearer null`. -/
inductive Authorization
  | absent
  | bearer (token : Option AuthToken)

def Authorization.token : Authorization → Option AuthToken
  | .absent => none
  | .bearer token => truthyToken token

end Tokens

/-! ## Requests -/

section Requests

/-- How a request is made: by `send`, or by one of the two that hand back the response itself. -/
inductive Fetcher
  | send
  | authorizedFetch
  | authedFetch
  deriving DecidableEq

structure Request where
  fetcher : Fetcher := .send
  path : String
  method : Option String := none
  cacheTtlMs : Option ℤ := none

namespace Request

variable (req : Request)

def methodName : String := (req.method.getD "GET").toUpper

/-- A 401 on the path may be answered with a refresh. -/
def refreshes : Bool :=
  match req.fetcher with
  | .send => !"/users/token".toList.isPrefixOf req.path.toList
  | _ => true

end Request

/-- `Response.ok`. -/
def okStatus (status : ℕ) : Bool := 200 ≤ status ∧ status < 300

/-- How a request ends: with a value (none on a 204), with the response itself, or in an error. -/
inductive CallOutcome (V : Type)
  | value (v : Option V)
  | response (status : ℕ)
  | apiError (status : ℕ)
  | thrown

structure CacheEntry (V : Type) where
  value : Option V
  storedAt : ℤ
  session : ℕ

/-- What a call waits for. -/
inductive CallStage (V : Type)
  | sent
  | refreshing (rt : AuthToken)
  | refreshBody (rt : AuthToken)
  | refreshed (done : Bool)
  | replayed
  | body
  | errorBody (status : ℕ)
  /-- `send` is done, and what follows it in `request` or in the cache is not. -/
  | settled (outcome : CallOutcome V)
  /-- The value was remembered, and the slot of the load is not given up yet. -/
  | remembered (outcome : CallOutcome V)
  | shared (loader : ℕ)
  | served (entry : CacheEntry V)
  | returned (outcome : CallOutcome V)

/-- A call, the session it was started in and, of a cached load, `ttlMs` and `startedAt`. -/
structure Call (V : Type) where
  request : Request
  session : ℕ
  cached : Option (ℤ × ℕ) := none
  stage : CallStage V

end Requests

/-! ## The cache -/

section Cache

variable {V : Type}

/-- The remembered values and the loads in flight. -/
structure RequestCache (V : Type) where
  entries : String → Option (CacheEntry V) := fun _ => none
  inFlight : String → Option ℕ := fun _ => none
  generation : ℕ := 0

namespace RequestCache

variable (cache : RequestCache V)

def invalidateAll : RequestCache V := { generation := cache.generation + 1 }

/-- The value is remembered, if nothing was invalidated since its load began. -/
def remember (key : String) (ttlMs : ℤ) (startedAt : ℕ) (entry : CacheEntry V) : RequestCache V :=
  if 0 < ttlMs ∧ startedAt = cache.generation then
    { cache with entries := Function.update cache.entries key (some entry) }
  else cache

/-- The slot is given up, if it is still that of the load. -/
def release (key : String) (loader : ℕ) : RequestCache V :=
  if cache.inFlight key = some loader then { cache with inFlight := Function.update cache.inFlight key none }
  else cache

def fresh (key : String) (ttlMs now : ℤ) : Option (CacheEntry V) :=
  (cache.entries key).filter fun entry => 0 < ttlMs ∧ now - entry.storedAt < ttlMs

end RequestCache

end Cache

/-! ## The client -/

section Client

variable {V : Type}

/-- What is watched. -/
inductive Note
  /-- A request of a session was sent. -/
  | sent (session : ℕ) (authorization : Authorization)
  /-- A refresh was sent in a session. -/
  | refreshSent (session : ℕ) (rt : AuthToken)
  /-- The tokens of a refresh were stored in a session. -/
  | stored (session : ℕ) (token : AuthToken)
  /-- A 401 of a request of a session cleared what was stored in the current one. -/
  | cleared (session current : ℕ) (tokens : List AuthToken)
  /-- A call of a session was given what another call had read. -/
  | returned (session loaded : ℕ)

structure Client (V : Type) where
  token : Option AuthToken := none
  refreshToken : Option AuthToken := none
  cache : RequestCache V := {}
  calls : ℕ → Option (Call V) := fun _ => none
  session : ℕ := 0
  notes : List Note := []

/-- What is awaited: a response, its body, or the turn of the next callback; a wait may fail. -/
inductive Answer (V : Type)
  | response (status : ℕ)
  | tokens (auth : TokenResponse)
  | json (value : V)
  | turn (now : ℤ)
  | failure

inductive ClientEvent (V : Type)
  | signIn (auth : TokenResponse)
  | signOut
  | invalidateCache
  | start (i : ℕ) (req : Request) (now : ℤ)
  | answer (i : ℕ) (answer : Answer V)

namespace Client

variable (c : Client V)

def stored : List AuthToken := c.token.toList ++ c.refreshToken.toList

def note (n : Note) : Client V := { c with notes := n :: c.notes }

def setStage (i : ℕ) (call : Call V) (stage : CallStage V) : Client V :=
  { c with calls := Function.update c.calls i (some { call with stage := stage }) }

@[simp] theorem setStage_self (i : ℕ) (call : Call V) (stage : CallStage V) :
    (c.setStage i call stage).calls i = some { call with stage := stage } :=
  Function.update_self ..

@[simp] theorem setStage_of_ne {i j : ℕ} (call : Call V) {stage : CallStage V} (hj : j ≠ i) :
    (c.setStage i call stage).calls j = c.calls j :=
  Function.update_of_ne hj ..

def invalidateCache : Client V := { c with cache := c.cache.invalidateAll }

/-- A refresh token that is not answered stays the stored one. -/
def setTokens (session : ℕ) (auth : TokenResponse) : Client V :=
  { c with
    token := some ⟨session, auth.accessToken⟩
    refreshToken := (truthyToken (auth.refreshToken.map (⟨session, ·⟩))).or c.refreshToken
    cache := c.cache.invalidateAll }

def clearTokens : Client V :=
  { c with
    token := none
    refreshToken := none
    cache := c.cache.invalidateAll }

/-- `login` stores the tokens of a new session. -/
def signIn (auth : TokenResponse) : Client V := { c.setTokens (c.session + 1) auth with session := c.session + 1 }

/-- `logout`. -/
def signOut : Client V := { c.clearTokens with session := c.session + 1 }

/-- The tokens are cleared, and the page that hears of `auth:unauthorized` signs out. -/
def unauthorized (call : Call V) : Client V :=
  (c.note (.cleared call.session c.session c.stored)).clearTokens.signOut

/-- The first header of a request. -/
def authorization : Authorization :=
  match truthyToken c.token with
  | some token => .bearer (some token)
  | none => .absent

/-- The header of its replay. -/
def replayAuthorization : Fetcher → Authorization
  | .send => .bearer c.token
  | _ => c.authorization

/-- The first segment of `send`: the request goes out. -/
def load (i : ℕ) (req : Request) (cached : Option (ℤ × ℕ)) : Client V :=
  { c.note (.sent c.session c.authorization) with
    calls := Function.update c.calls i (some ⟨req, c.session, cached, .sent⟩) }

/-- `RequestCache.run`. -/
def run (i : ℕ) (req : Request) (ttlMs now : ℤ) : Client V :=
  match c.cache.inFlight req.path with
  | some loader => { c with calls := Function.update c.calls i (some ⟨req, c.session, none, .shared loader⟩) }
  | none =>
    match c.cache.fresh req.path ttlMs now with
    | some entry => { c with calls := Function.update c.calls i (some ⟨req, c.session, none, .served entry⟩) }
    | none =>
      { c.load i req (some (ttlMs, c.cache.generation)) with
        cache := { c.cache with inFlight := Function.update c.cache.inFlight req.path (some i) } }

/-- The first segment of a call; only `request` reads through the cache. -/
def start (i : ℕ) (req : Request) (now : ℤ) : Client V :=
  match req.fetcher, req.cacheTtlMs with
  | .send, some ttlMs => if req.methodName = "GET" then c.run i req ttlMs now else c.load i req none
  | _, _ => c.load i req none

/-- The call is done with the network. -/
def finish (i : ℕ) (call : Call V) (outcome : CallOutcome V) : Client V :=
  match call.request.fetcher with
  | .send => c.setStage i call (.settled outcome)
  | _ => c.setStage i call (.returned outcome)

def lastResponse (i : ℕ) (call : Call V) (status : ℕ) : Client V :=
  match call.request.fetcher with
  | .authedFetch => c.finish i call (.response status)
  | .authorizedFetch => (if status = 401 then c.unauthorized call else c).finish i call (.response status)
  | .send =>
    let c := if status = 401 then c.unauthorized call else c
    if !okStatus status then c.setStage i call (.errorBody status)
    else if status = 204 then c.finish i call (.value none)
    else c.setStage i call .body

/-- What a call does with its first response: on a 401 it tries one silent refresh. -/
def firstResponse (i : ℕ) (call : Call V) (status : ℕ) : Client V :=
  if status = 401 ∧ call.request.refreshes then
    match truthyToken c.refreshToken with
    | some rt => (c.note (.refreshSent c.session rt)).setStage i call (.refreshing rt)
    | none => c.lastResponse i call status
  else c.lastResponse i call status

/-- The tokens belong to the session of the refresh token that they were given for. -/
def storeRefreshed (rt : AuthToken) (auth : TokenResponse) : Client V :=
  (c.note (.stored c.session ⟨rt.session, auth.accessToken⟩)).setTokens rt.session auth

def replay (i : ℕ) (call : Call V) : Client V :=
  (c.note (.sent call.session (c.replayAuthorization call.request.fetcher))).setStage i call .replayed

/-- What follows `send`: the cache remembers a value, and a successful write empties it. -/
def settle (i : ℕ) (call : Call V) (outcome : CallOutcome V) (now : ℤ) : Client V :=
  match call.cached, outcome with
  | some (ttlMs, startedAt), .value v =>
    { c.setStage i call (.remembered outcome) with
      cache := c.cache.remember call.request.path ttlMs startedAt ⟨v, now, call.session⟩ }
  | some _, _ => c.setStage i call (.remembered outcome)
  | none, .value _ =>
    (if call.request.methodName ≠ "GET" then c.invalidateCache else c).setStage i call (.returned outcome)
  | none, _ => c.setStage i call (.returned outcome)

/-- The load gives up its slot. -/
def release (i : ℕ) (call : Call V) (outcome : CallOutcome V) : Client V :=
  { c.setStage i call (.returned outcome) with cache := c.cache.release call.request.path i }

/-- A call that shares a load is given its outcome once the load has returned. -/
def join (i : ℕ) (call : Call V) (loader : ℕ) : Option (Client V) :=
  match c.calls loader with
  | some loading =>
    match loading.stage with
    | .returned outcome => some ((c.note (.returned call.session loading.session)).setStage i call (.returned outcome))
    | _ => none
  | none => none

/-- The segment of a call that an answer starts. -/
def advance (i : ℕ) (call : Call V) : CallStage V → Answer V → Option (Client V)
  | .sent, .response status => some (c.firstResponse i call status)
  | .sent, .failure => some (c.finish i call .thrown)
  | .refreshing rt, .response status =>
    some (c.setStage i call (if okStatus status then .refreshBody rt else .refreshed false))
  | .refreshing _, .failure => some (c.setStage i call (.refreshed false))
  | .refreshBody rt, .tokens auth => some ((c.storeRefreshed rt auth).setStage i call (.refreshed true))
  | .refreshBody _, .failure => some (c.setStage i call (.refreshed false))
  | .refreshed true, .turn _ => some (c.replay i call)
  | .refreshed false, .turn _ => some (c.lastResponse i call 401)
  | .replayed, .response status => some (c.lastResponse i call status)
  | .replayed, .failure => some (c.finish i call .thrown)
  | .body, .json value => some (c.finish i call (.value (some value)))
  | .body, .failure => some (c.finish i call .thrown)
  | .errorBody status, .json _ => some (c.finish i call (.apiError status))
  | .errorBody status, .failure => some (c.finish i call (.apiError status))
  | .settled outcome, .turn now => some (c.settle i call outcome now)
  | .remembered outcome, .turn _ => some (c.release i call outcome)
  | .shared loader, .turn _ => c.join i call loader
  | .served entry, .turn _ =>
    some ((c.note (.returned call.session entry.session)).setStage i call (.returned (.value entry.value)))
  | _, _ => none

def step : ClientEvent V → Option (Client V)
  | .signIn auth => some (c.signIn auth)
  | .signOut => some c.signOut
  | .invalidateCache => some c.invalidateCache
  | .start i req now => if (c.calls i).isNone then some (c.start i req now) else none
  | .answer i answer =>
    match c.calls i with
    | some call => c.advance i call call.stage answer
    | none => none

/-- The client of a page that finds tokens in the storage, or none. -/
def opened (auth : Option TokenResponse) : Client V where
  token := auth.map fun a => ⟨0, a.accessToken⟩
  refreshToken := auth.bind fun a => a.refreshToken.map (⟨0, ·⟩)

end Client

end Client

end Transform.Web
