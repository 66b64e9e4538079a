import Mathlib.Data.Finset.Card
import Mathlib.Data.Finset.Image
import Mathlib.Data.List.Dedup
import Mathlib.Data.String.Basic
import Mathlib.Logic.Function.Basic
import Transform.Lib.Double
import Transform.Lib.SlidingLog

/-!
# Api.RateLimit — the rate limiter of the API

`RedisRateLimiter` keeps a sorted set for each key, with one member for each millisecond in which a request came, and
counts it after adding the request; the in-memory fallback of the middleware keeps the times of the requests it
allowed.  Readings of the clock are seconds since the epoch.

* `fallback_greedy`: the fallback allows a request exactly if fewer than `limit` allowed ones came in the window.
* `redis_decisions`: what the Redis limiter decides, from the arrivals alone.
* `limiters_agree_iff`: when the two decide the same.
-/

namespace Transform.Api

open Lib

/-- A reading of `time.time()`: a double, of the years up to 141000. -/
structure Clock where
  seconds : ℚ
  double : IsDouble seconds
  inRange : 0 ≤ seconds ∧ seconds < 2 ^ 42
  deriving DecidableEq

/-! ## The Redis limiter -/

section Redis

/-- A sorted set: its members, each with its score. -/
abbrev SortedSet := List (String × ℤ)

def zremrangebyscore (low high : ℤ) (members : SortedSet) : SortedSet :=
  members.filter fun m => ¬ (low ≤ m.2 ∧ m.2 ≤ high)

def zadd (member : String) (score : ℤ) (members : SortedSet) : SortedSet :=
  members.filter (fun m => m.1 ≠ member) ++ [(member, score)]

def zcard (members : SortedSet) : ℕ := members.length

/-- What Redis holds under a key, and when it drops it. -/
structure RedisKey where
  members : SortedSet := []
  expiresAt : Option ℚ := none

def RedisKey.read (now : Clock) (stored : RedisKey) : SortedSet :=
  match stored.expiresAt with
  | some expiresAt => if expiresAt ≤ now.seconds then [] else stored.members
  | none => stored.members

/-- `int(time.time() * 1000)`: the product is rounded to a double before it is cut. -/
def nowMs (now : Clock) : ℕ := ⌊roundDouble (now.seconds * 1000)⌋₊

/-- The reading 1700000000.001 is a little below its decimal, and its milliseconds are not. -/
example : nowMs ⟨3565158400002097 / 2097152, by decide +kernel, by norm_num⟩ = 1700000000001 := by decide +kernel

/-- `RedisRateLimiter.get_remaining`: the number of requests left, and the key after the pipeline. -/
def getRemaining (limit : ℤ) (windowSeconds : ℕ) (now : Clock) (stored : RedisKey) : ℤ × RedisKey :=
  let windowStart : ℤ := nowMs now - windowSeconds * 1000
  let members := zremrangebyscore 0 windowStart (stored.read now)
  let members := zadd (toString (nowMs now)) (nowMs now) members
  let currentCount := zcard members
  (max 0 (limit - currentCount), { members, expiresAt := some (now.seconds + windowSeconds + 1) })

/-- `RedisRateLimiter.is_allowed`. -/
def redisIsAllowed (limit : ℤ) (windowSeconds : ℕ) (now : Clock) (stored : RedisKey) : Bool × RedisKey :=
  let (remaining, stored) := getRemaining limit windowSeconds now stored
  (0 < remaining, stored)

end Redis

/-! ## The middleware -/

section Middleware

/-- The in-memory fallback: the times of the allowed requests of each key, in the order of the dictionary. -/
abbrev Store := List (String × List Clock)

def inMemoryMaxKeys : ℕ := 10000

def Store.get (store : Store) (key : String) : List Clock := (store.lookup key).getD []

def Store.set (store : Store) (key : String) (times : List Clock) : Store :=
  if store.any fun e => e.1 = key then store.map fun e => if e.1 = key then (key, times) else e
  else store ++ [(key, times)]

/-- `_prune_store`. -/
def pruneStore (now : Clock) (window : ℕ) (store : Store) : Store :=
  if store.length < inMemoryMaxKeys then store
  else
    let live := store.filter fun e => match e.2.getLast? with
      | some last => subDouble now.seconds last.seconds < window
      | none => false
    if inMemoryMaxKeys ≤ live.length then
      let byRecency := live.mergeSort fun e e' => e.2.getLast?.elim 0 Clock.seconds ≤ e'.2.getLast?.elim 0 Clock.seconds
      let evicted := (byRecency.take (byRecency.length - inMemoryMaxKeys / 2)).map Prod.fst
      live.filter fun e => e.1 ∉ evicted
    else live

/-- What the middleware holds, and the keys in Redis. -/
structure RateLimitState where
  redis : String → RedisKey := fun _ => {}
  redisUnavailable : Bool := false
  store : Store := []

/-- The in-memory part of `_is_allowed`. -/
def fallbackIsAllowed (key : String) (limit : ℤ) (window : ℕ) (now : Clock) (store : Store) : Bool × Store :=
  let store := if store.any fun e => e.1 = key then store else (pruneStore now window store).set key []
  let store := store.set key ((store.get key).filter fun t => subDouble now.seconds t.seconds < window)
  if limit ≤ (store.get key).length then (false, store)
  else (true, store.set key (store.get key ++ [now]))

/-- `RateLimitMiddleware._is_allowed`, with a Redis client or without one.  `up` says whether Redis answers. -/
def isAllowed (hasRedis up : Bool) (key : String) (limit : ℤ) (window : ℕ) (now : Clock) (state : RateLimitState) :
    Bool × RateLimitState :=
  let inMemory (state : RateLimitState) :=
    let (allowed, store) := fallbackIsAllowed key limit window now state.store
    (allowed, { state with store })
  if hasRedis && !state.redisUnavailable then
    if up then
      let (allowed, stored) := redisIsAllowed limit window now (state.redis key)
      (allowed, { state with redis := Function.update state.redis key stored })
    else inMemory { state with redisUnavailable := true }
  else inMemory state

/-- The requests with one key, newest first, each with whether it was allowed, and the state after them. -/
def serve (hasRedis : Bool) (key : String) (limit : ℤ) (window : ℕ) : List Clock → RateLimitState × List (Clock × Bool)
  | [] => ({}, [])
  | now :: past =>
    let (state, log) := serve hasRedis key limit window past
    let (allowed, state) := isAllowed hasRedis true key limit window now state
    (state, (now, allowed) :: log)

end Middleware
/-! ## The fallback -/

section Fallback

variable {key : String} {limit window : ℕ} {now : Clock} {times : List Clock}

/-- The fallback counts a request for `window` seconds, by the difference of the readings in doubles. -/
abbrev Counts (window : ℕ) (past now : Clock) : Prop := subDouble now.seconds past.seconds < window

/-- The difference is exact where the later reading is at most twice the earlier one. -/
theorem counts_iff_within {past : Clock} (hle : past.seconds ≤ now.seconds) (htwice : now.seconds ≤ 2 * past.seconds) :
    Counts window past now ↔ Within Clock.seconds (window : ℚ) past now := by
  rw [Counts, subDouble_eq_sub now.double past.double hle htwice]

theorem fallback_fresh : fallbackIsAllowed key limit window now [] = fallbackIsAllowed key limit window now [(key, [])] := by
  simp [fallbackIsAllowed, pruneStore, inMemoryMaxKeys, Store.set]

/-- The times of a key that count at a request. -/
def counting (window : ℕ) (now : Clock) (times : List Clock) : List Clock := times.filter fun t => Counts window t now

theorem fallback_step (limit window : ℕ) (now : Clock) (times : List Clock) :
    fallbackIsAllowed key limit window now [(key, times)] =
      (decide ((counting window now times).length < limit),
        [(key, counting window now times ++ if (counting window now times).length < limit then [now] else [])]) := by
  by_cases h : (counting window now times).length < limit
  · have hle : ¬ ((limit : ℤ) ≤ (counting window now times).length) := by omega
    simp only [counting, Counts] at h hle
    simp [fallbackIsAllowed, Store.set, Store.get, counting, h, hle]
  · have hle : (limit : ℤ) ≤ (counting window now times).length := by omega
    simp only [counting, Counts] at h hle
    simp [fallbackIsAllowed, Store.set, Store.get, counting, h, hle]

/-- What the fallback remembers of a log: from now on, its times count as the allowed requests do. -/
def Remembers (window : ℕ) (now : Clock) (log : List (Clock × Bool)) (times : List Clock) : Prop :=
  ∀ later : Clock, now.seconds ≤ later.seconds → (counting window later times).length = admittedIn (Counts window) later log

theorem remembers_later {log : List (Clock × Bool)} {later : Clock} (h : Remembers window now log times)
    (hle : now.seconds ≤ later.seconds) : Remembers window later log times := fun last hlast => h last (hle.trans hlast)

theorem remembers_step {log : List (Clock × Bool)} {allowed : Bool} (h : Remembers window now log times) :
    Remembers window now ((now, allowed) :: log) (counting window now times ++ if allowed then [now] else []) := by
  intro later hle
  have hkept : counting window later (counting window now times) = counting window later times := by
    unfold counting
    rw [List.filter_filter]
    refine List.filter_congr fun t _ => ?_
    have himp : Counts window t later → Counts window t now := fun hl => (subDouble_mono hle t.seconds).trans_lt hl
    simp only [← Bool.decide_and, decide_eq_decide]
    exact ⟨fun hand => hand.1, fun hl => ⟨hl, himp hl⟩⟩
  have hcount := h later hle
  have happend : counting window later (counting window now times ++ if allowed then [now] else []) =
      counting window later times ++ counting window later (if allowed then [now] else []) := by
    rw [← hkept]
    exact List.filter_append ..
  unfold admittedIn at hcount ⊢
  rw [happend, List.length_append, hcount, List.countP_cons]
  cases allowed with
  | false => simp [counting]
  | true =>
    by_cases hl : Counts window now later
    · simp [counting, hl]
    · simp [counting, hl]

theorem fallback_keeps {log : List (Clock × Bool)} (h : Remembers window now log times) :
    Remembers window now ((now, decide ((counting window now times).length < limit)) :: log)
        (counting window now times ++ if (counting window now times).length < limit then [now] else []) ∧
      (decide ((counting window now times).length < limit) = true ↔ admittedIn (Counts window) now log < limit) := by
  refine ⟨?_, ?_⟩
  · have hstep := @remembers_step window now times log (decide ((counting window now times).length < limit)) h
    simpa using hstep
  · rw [decide_eq_true_iff, h now le_rfl]

theorem isAllowed_fallback {state : RateLimitState} (h : state.store = [(key, times)] ∨ state.store = [] ∧ times = []) :
    isAllowed false true key limit window now state =
      (decide ((counting window now times).length < limit), { state with store :=
        [(key, counting window now times ++ if (counting window now times).length < limit then [now] else [])] }) := by
  rcases h with h | ⟨h, rfl⟩
  · simp only [isAllowed, Bool.false_and, Bool.false_eq_true, if_false, h, fallback_step]
  · simp only [isAllowed, Bool.false_and, Bool.false_eq_true, if_false, h, fallback_fresh, fallback_step]

theorem serve_fallback : ∀ {now : Clock} {past : List Clock}, InOrder Clock.seconds (now :: past) →
    ∃ times, (serve false key limit window (now :: past)).1.store = [(key, times)] ∧
      Remembers window now (serve false key limit window (now :: past)).2 times ∧
      Greedy (Counts window) limit (serve false key limit window (now :: past)).2
  | now, [], _ => by
    have hempty : Remembers window now [] [] := fun _ _ => rfl
    obtain ⟨hmem, hdecided⟩ := @fallback_keeps limit window now [] [] hempty
    have hfirst := @isAllowed_fallback key limit window now [] {} (.inr ⟨rfl, rfl⟩)
    simp only [serve, hfirst]
    exact ⟨_, rfl, hmem, hdecided, trivial⟩
  | now, last :: past, hord => by
    obtain ⟨hpast, hrest⟩ := List.pairwise_cons.1 hord
    obtain ⟨times, hstore, hlast, hgreedy⟩ := @serve_fallback last past hrest
    have hle := hpast last (List.mem_cons_self ..)
    obtain ⟨hmem, hdecided⟩ := @fallback_keeps limit window now times _ (remembers_later hlast hle)
    have hnext := @isAllowed_fallback key limit window now times _ (.inl hstore)
    rw [serve]
    simp only [hnext]
    exact ⟨_, rfl, hmem, hdecided, hgreedy⟩

theorem arrivals_serve {hasRedis : Bool} : ∀ past : List Clock,
    (serve hasRedis key limit window past).2.map Prod.fst = past
  | [] => rfl
  | now :: past => by
    rw [serve]
    exact congrArg (now :: ·) (arrivals_serve past)

/-- **The fallback** allows a request exactly if fewer than `limit` allowed ones count when it comes. -/
theorem fallback_greedy {past : List Clock} (hord : InOrder Clock.seconds past) :
    Greedy (Counts window) limit (serve false key limit window past).2 := by
  cases past with
  | nil => trivial
  | cons now past =>
    obtain ⟨_, _, _, hgreedy⟩ := @serve_fallback key limit window now past hord
    exact hgreedy

end Fallback

/-! ## The sorted set -/

section Attempts

variable {key : String} {limit window : ℕ} {now last : Clock} {past : List Clock} {stored : RedisKey}

/-- The milliseconds that the sorted set holds after a request at `now`: the one it came in, and those of the earlier
requests, allowed or not, that the window still reaches. -/
def attemptedMs (window : ℕ) (now : Clock) (past : List Clock) : Finset ℕ :=
  insert (nowMs now) ((past.filter fun t => nowMs now < nowMs t + window * 1000).map nowMs).toFinset

/-- What the Redis limiter decides: the request is allowed if the window reaches less than `limit` milliseconds in which
requests came. -/
def redisDecisions (limit window : ℕ) : List Clock → List (Clock × Bool)
  | [] => []
  | now :: past => (now, decide ((attemptedMs window now past).card < limit)) :: redisDecisions limit window past

/-- The member of a millisecond. -/
def memberOf (ms : ℕ) : String × ℤ := (toString ms, ms)

theorem memberOf_injective : Function.Injective memberOf := by
  intro a b h
  have hscore : (a : ℤ) = b := congrArg Prod.snd h
  omega

theorem toString_ne {a b : ℕ} (h : a ≠ b) : toString a ≠ toString b := by
  intro hs
  have hchars := congrArg String.toList hs
  simp only [Nat.toString_eq_repr, Nat.toList_repr] at hchars
  have hnum := congrArg (fun digits => Nat.ofDigitChars 10 digits 0) hchars
  exact h (by simpa [Nat.ofDigitChars_toDigits] using hnum)

/-- The sorted set has a member for each of these milliseconds and no other. -/
def Tracks (ms : Finset ℕ) (members : SortedSet) : Prop :=
  members.Nodup ∧ ∀ m, m ∈ members ↔ ∃ n ∈ ms, m = memberOf n

theorem zcard_of_tracks {ms : Finset ℕ} {members : SortedSet} (h : Tracks ms members) : zcard members = ms.card := by
  have hnodup : (ms.toList.map memberOf).Nodup := ms.nodup_toList.map memberOf_injective
  have hperm : members.Perm (ms.toList.map memberOf) := by
    refine (List.perm_ext_iff_of_nodup h.1 hnodup).2 fun m => ?_
    rw [h.2 m, List.mem_map]
    simp only [Finset.mem_toList]
    exact exists_congr fun n => and_congr_right fun _ => eq_comm
  unfold zcard
  rw [hperm.length_eq, List.length_map, Finset.length_toList]

theorem tracks_zremrangebyscore {ms : Finset ℕ} {members : SortedSet} {high : ℤ} (h : Tracks ms members) :
    Tracks (ms.filter fun n => high < n) (zremrangebyscore 0 high members) := by
  refine ⟨h.1.filter _, fun m => ?_⟩
  unfold zremrangebyscore
  rw [List.mem_filter, h.2 m]
  constructor
  · rintro ⟨⟨n, hn, rfl⟩, hkept⟩
    refine ⟨n, Finset.mem_filter.2 ⟨hn, ?_⟩, rfl⟩
    simp [memberOf] at hkept
    omega
  · rintro ⟨n, hn, rfl⟩
    obtain ⟨hmem, hlt⟩ := Finset.mem_filter.1 hn
    refine ⟨⟨n, hmem, rfl⟩, ?_⟩
    simp [memberOf]
    omega

theorem tracks_zadd {ms : Finset ℕ} {members : SortedSet} (n : ℕ) (h : Tracks ms members) :
    Tracks (insert n ms) (zadd (toString n) n members) := by
  have hmem : ∀ m, m ∈ members.filter (fun m => m.1 ≠ toString n) ↔ ∃ k ∈ ms, k ≠ n ∧ m = memberOf k := by
    intro m
    rw [List.mem_filter, h.2 m]
    constructor
    · rintro ⟨⟨k, hk, rfl⟩, hne⟩
      refine ⟨k, hk, ?_, rfl⟩
      rintro rfl
      simp [memberOf] at hne
    · rintro ⟨k, hk, hkn, rfl⟩
      exact ⟨⟨k, hk, rfl⟩, by simpa [memberOf] using toString_ne hkn⟩
  refine ⟨?_, fun m => ?_⟩
  · refine List.nodup_append.2 ⟨h.1.filter _, List.nodup_singleton _, ?_⟩
    intro m hm m' hm' heq
    obtain ⟨k, -, hkn, rfl⟩ := (hmem m).1 hm
    have hm'' : m' = memberOf n := List.mem_singleton.1 hm'
    exact hkn (memberOf_injective (heq.trans hm''))
  · unfold zadd
    rw [List.mem_append, hmem m, List.mem_singleton]
    constructor
    · rintro (⟨k, hk, -, rfl⟩ | rfl)
      · exact ⟨k, Finset.mem_insert_of_mem hk, rfl⟩
      · exact ⟨n, Finset.mem_insert_self .., rfl⟩
    · rintro ⟨k, hk, rfl⟩
      by_cases hkn : k = n
      · right
        rw [hkn]
        rfl
      · left
        exact ⟨k, (Finset.mem_insert.1 hk).resolve_left hkn, hkn, rfl⟩

theorem nowMs_mono (h : last.seconds ≤ now.seconds) : nowMs last ≤ nowMs now := by
  have hms := mul_le_mul_of_nonneg_right h (by norm_num : (0 : ℚ) ≤ 1000)
  exact Nat.floor_mono (roundDouble_mono (mul_nonneg last.inRange.1 (by norm_num)) hms)

/-- The milliseconds are the time up to a rounding of half of one. -/
theorem nowMs_bounds (now : Clock) :
    (nowMs now : ℚ) ≤ now.seconds * 1000 + 1 / 2 ∧ now.seconds * 1000 - 3 / 2 < nowMs now := by
  obtain ⟨h₀, hlt⟩ := now.inRange
  have hms : 0 ≤ now.seconds * 1000 := mul_nonneg h₀ (by norm_num)
  have hulp := ulp_le_one hms (by linarith)
  have hround := abs_le.1 (abs_roundDouble_sub_le (now.seconds * 1000))
  have hlow := Nat.floor_le (roundDouble_nonneg hms)
  have hhigh := Nat.lt_floor_add_one (roundDouble (now.seconds * 1000))
  unfold nowMs
  constructor <;> linarith

/-- What the set holds after a request, from what it held after the one before. -/
theorem attemptedMs_cons (h : last.seconds ≤ now.seconds) : attemptedMs window now (last :: past) =
    insert (nowMs now) ((attemptedMs window last past).filter fun n => nowMs now < n + window * 1000) := by
  have hms := nowMs_mono h
  ext n
  simp only [attemptedMs, Finset.mem_insert, Finset.mem_filter, List.mem_toFinset, List.mem_map, List.mem_filter,
    List.mem_cons, decide_eq_true_eq]
  refine or_congr_right ?_
  constructor
  · rintro ⟨t, ⟨rfl | ht, hlt⟩, rfl⟩
    · exact ⟨.inl rfl, hlt⟩
    · exact ⟨.inr ⟨t, ⟨ht, by omega⟩, rfl⟩, hlt⟩
  · rintro ⟨rfl | ⟨t, ⟨ht, -⟩, rfl⟩, hlt⟩
    · exact ⟨last, ⟨.inl rfl, hlt⟩, rfl⟩
    · exact ⟨t, ⟨.inr ht, hlt⟩, rfl⟩

/-- Nothing that a key holds outlives it in the window: once the key has expired, every millisecond is out of reach. -/
theorem filter_of_expired (hpast : ∀ t ∈ past, t.seconds ≤ last.seconds)
    (hexpired : last.seconds + window + 1 ≤ now.seconds) :
    (attemptedMs window last past).filter (fun n => nowMs now < n + window * 1000) = ∅ := by
  have hfar : nowMs last + window * 1000 ≤ nowMs now := by
    have hlast := (nowMs_bounds last).1
    have hnow := (nowMs_bounds now).2
    have hsum : ((nowMs last + window * 1000 : ℕ) : ℚ) ≤ nowMs now := by
      push_cast
      linarith
    exact_mod_cast hsum
  refine Finset.filter_eq_empty_iff.2 fun n hn => ?_
  simp only [attemptedMs, Finset.mem_insert, List.mem_toFinset, List.mem_map, List.mem_filter] at hn
  rcases hn with rfl | ⟨t, ⟨ht, -⟩, rfl⟩
  · omega
  · have hle := nowMs_mono (hpast t ht)
    omega

/-- What the limiter holds of the requests so far: nothing, or the milliseconds of the window and the expiry that the
newest request set. -/
def Holds (window : ℕ) : List Clock → RedisKey → Prop
  | [], stored => stored.members = [] ∧ stored.expiresAt = none
  | last :: past, stored =>
    Tracks (attemptedMs window last past) stored.members ∧ stored.expiresAt = some (last.seconds + window + 1)

theorem tracks_empty : Tracks ∅ [] := ⟨List.nodup_nil, fun m => by simp⟩

theorem read_of_live (h : ∀ expiresAt, stored.expiresAt = some expiresAt → now.seconds < expiresAt) :
    stored.read now = stored.members := by
  unfold RedisKey.read
  rcases he : stored.expiresAt with _ | expiresAt
  · rfl
  · simp [not_le.2 (h expiresAt he)]

/-- What a request leaves of the members it finds: they and its own millisecond are what the set holds after it. -/
theorem tracks_expired (hord : InOrder Clock.seconds (now :: past)) (h : Holds window past stored) :
    ∃ ms, attemptedMs window now past = insert (nowMs now) ms ∧
      Tracks ms (zremrangebyscore 0 ((nowMs now : ℤ) - window * 1000) (stored.read now)) := by
  cases past with
  | nil =>
    obtain ⟨hmembers, hexpires⟩ := h
    refine ⟨∅, by simp [attemptedMs], ?_⟩
    rw [read_of_live (by simp [hexpires]), hmembers]
    exact tracks_empty
  | cons last past =>
    obtain ⟨htracks, hexpires⟩ := h
    obtain ⟨hpast, hrest⟩ := List.pairwise_cons.1 hord
    have hle := hpast last (List.mem_cons_self ..)
    refine ⟨_, attemptedMs_cons hle, ?_⟩
    by_cases hexpired : last.seconds + window + 1 ≤ now.seconds
    · have hold := (List.pairwise_cons.1 hrest).1
      have hread : stored.read now = [] := by
        unfold RedisKey.read
        rw [hexpires]
        exact if_pos hexpired
      rw [filter_of_expired hold hexpired, hread]
      exact tracks_empty
    · have hread : stored.read now = stored.members := by
        refine read_of_live fun expiresAt he => ?_
        rw [hexpires] at he
        rw [← Option.some.inj he]
        exact not_le.1 hexpired
      rw [hread]
      have hkept := @tracks_zremrangebyscore _ _ ((nowMs now : ℤ) - window * 1000) htracks
      have hsame : (attemptedMs window last past).filter (fun n => nowMs now < n + window * 1000) =
          (attemptedMs window last past).filter fun n => (nowMs now : ℤ) - window * 1000 < (n : ℕ) :=
        Finset.filter_congr fun n _ => by omega
      rw [hsame]
      exact hkept

/-- One request: the limiter decides by the milliseconds it then holds. -/
theorem redis_step (hord : InOrder Clock.seconds (now :: past)) (h : Holds window past stored) :
    (redisIsAllowed limit window now stored).1 = decide ((attemptedMs window now past).card < limit) ∧
      Holds window (now :: past) (redisIsAllowed limit window now stored).2 := by
  obtain ⟨ms, hms, htracks⟩ := tracks_expired hord h
  have hadded := tracks_zadd (nowMs now) htracks
  rw [← hms] at hadded
  have hcard := zcard_of_tracks hadded
  refine ⟨?_, hadded, rfl⟩
  simp only [redisIsAllowed, getRemaining, hcard, lt_max_iff, lt_self_iff_false, false_or, decide_eq_decide]
  omega

theorem serve_redis : ∀ {past : List Clock}, InOrder Clock.seconds past →
    (serve true key limit window past).1.redisUnavailable = false ∧
      Holds window past ((serve true key limit window past).1.redis key) ∧
      (serve true key limit window past).2 = redisDecisions limit window past
  | [], _ => ⟨rfl, ⟨rfl, rfl⟩, rfl⟩
  | now :: past, hord => by
    obtain ⟨hup, hholds, hlog⟩ := serve_redis (List.pairwise_cons.1 hord).2
    obtain ⟨hdecided, hnext⟩ := @redis_step limit window now past _ hord hholds
    rw [serve]
    simp only [isAllowed, hup, Bool.not_false, Bool.and_true, if_true, Function.update_self, hlog]
    refine ⟨trivial, hnext, ?_⟩
    rw [hdecided]
    rfl

/-- **The Redis limiter** decides from the arrivals alone, by the milliseconds that requests came in. -/
theorem redis_decisions (hord : InOrder Clock.seconds past) :
    (serve true key limit window past).2 = redisDecisions limit window past := (serve_redis hord).2.2

end Attempts

/-! ## When the two agree -/

section Agreement

variable {key : String} {limit window : ℕ} {now : Clock} {past : List Clock}

/-- The requests of `past` that count at `now` and came while the window reached less than `limit` milliseconds in which
requests came. -/
def unsaturated (live : Clock → Clock → Prop) [DecidableRel live] (limit window : ℕ) (now : Clock) : List Clock → ℕ
  | [] => 0
  | t :: past => unsaturated live limit window now past +
      if live t now ∧ (attemptedMs window t past).card < limit then 1 else 0

/-- At every request, the window reaches `limit` milliseconds in which requests came exactly if `limit` requests of the
window came while it reached less. -/
def SaturatesTogether (live : Clock → Clock → Prop) [DecidableRel live] (limit window : ℕ) : List Clock → Prop
  | [] => True
  | now :: past => (limit ≤ (attemptedMs window now past).card ↔ limit ≤ unsaturated live limit window now past) ∧
      SaturatesTogether live limit window past

section Live

variable {live live' : Clock → Clock → Prop} [DecidableRel live] [DecidableRel live']

theorem admittedIn_redisDecisions : ∀ past : List Clock,
    admittedIn live now (redisDecisions limit window past) = unsaturated live limit window now past
  | [] => rfl
  | t :: past => by
    have ih := admittedIn_redisDecisions past
    unfold admittedIn at ih ⊢
    rw [redisDecisions, unsaturated, List.countP_cons, ih]
    simp only [Bool.and_eq_true, decide_eq_true_eq, and_comm]

theorem greedy_redisDecisions : ∀ past : List Clock,
    Greedy live limit (redisDecisions limit window past) ↔ SaturatesTogether live limit window past
  | [] => Iff.rfl
  | now :: past => by
    refine and_congr ?_ (greedy_redisDecisions past)
    rw [decide_eq_true_iff, admittedIn_redisDecisions]
    omega

theorem unsaturated_congr : ∀ {past : List Clock}, (∀ t ∈ past, live t now ↔ live' t now) →
    unsaturated live limit window now past = unsaturated live' limit window now past
  | [], _ => rfl
  | t :: past, h => by
    obtain ⟨ht, hpast⟩ := List.forall_mem_cons.1 h
    simp only [unsaturated, unsaturated_congr hpast, ht]

theorem saturatesTogether_congr : ∀ {past : List Clock}, past.Pairwise (fun now t => live t now ↔ live' t now) →
    (SaturatesTogether live limit window past ↔ SaturatesTogether live' limit window past)
  | [], _ => Iff.rfl
  | now :: past, h => by
    obtain ⟨hnow, hpast⟩ := List.pairwise_cons.1 h
    simp only [SaturatesTogether, unsaturated_congr hnow, saturatesTogether_congr hpast]

end Live

/-- What the limiter should guarantee of a log: no window of `window` seconds holds more than `limit` allowed requests,
and a request is refused only if `limit` requests were allowed in the `window` seconds before it. -/
def LimitsExactly (limit window : ℕ) (log : List (Clock × Bool)) : Prop :=
  (∀ start : ℚ, admittedAfter Clock.seconds window start log ≤ limit) ∧
    RefusesFull (Within Clock.seconds (window : ℚ)) limit log

/-- **The Redis limiter and the fallback**: on arrivals in order, the Redis limiter allows at most `limit` requests in
any window, refuses only when the window is full, and decides as the fallback does, exactly if at every request the
milliseconds with requests reach the limit when the requests that came before that do, by the seconds between the
readings and by their difference in doubles. -/
theorem limiters_agree_iff (key : String) (limit window : ℕ) (past : List Clock) (hlimit : 1 ≤ limit)
    (hord : InOrder Clock.seconds past) :
    (LimitsExactly limit window (serve true key limit window past).2 ∧
        (serve true key limit window past).2 = (serve false key limit window past).2) ↔
      SaturatesTogether (Within Clock.seconds (window : ℚ)) limit window past ∧
        SaturatesTogether (Counts window) limit window past := by
  have hredis := @redis_decisions key limit window past hord
  have harrivals : (redisDecisions limit window past).map Prod.fst = past := by
    rw [← hredis]
    exact arrivals_serve past
  have hexact : Greedy (Within Clock.seconds (window : ℚ)) limit (redisDecisions limit window past) ↔
      LimitsExactly limit window (redisDecisions limit window past) := by
    refine greedy_iff hlimit ?_
    rw [harrivals]
    exact hord
  have hfallback := @fallback_greedy key limit window past hord
  have hsame : Greedy (Counts window) limit (redisDecisions limit window past) ↔
      redisDecisions limit window past = (serve false key limit window past).2 := by
    refine ⟨fun h => greedy_unique ?_ h hfallback, fun h => ?_⟩
    · rw [harrivals, arrivals_serve]
    · rw [h]
      exact hfallback
  rw [hredis, ← hexact, ← hsame, greedy_redisDecisions, greedy_redisDecisions]

/-- The two conditions are one where no reading is more than twice an earlier one. -/
theorem saturates_of_twice {past : List Clock} (hord : InOrder Clock.seconds past)
    (htwice : past.Pairwise fun now t => now.seconds ≤ 2 * t.seconds) :
    SaturatesTogether (Counts window) limit window past ↔
      SaturatesTogether (Within Clock.seconds (window : ℚ)) limit window past :=
  saturatesTogether_congr ((hord.and htwice).imp fun h => counts_iff_within h.1 h.2)

/-- The time 1700000000 s and a second later. -/
def readings : List Clock := [⟨1700000001, by decide +kernel, by norm_num⟩, ⟨1700000000, by decide +kernel, by norm_num⟩]

/-- Two requests within a limit of three. -/
theorem limiters_agree_iff_twoOfThree :
    (LimitsExactly 3 60 (serve true "ip" 3 60 readings).2 ∧
        (serve true "ip" 3 60 readings).2 = (serve false "ip" 3 60 readings).2) ↔
      SaturatesTogether (Within Clock.seconds (60 : ℕ)) 3 60 readings ∧ SaturatesTogether (Counts 60) 3 60 readings :=
  limiters_agree_iff "ip" 3 60 readings (by decide) (by norm_num [InOrder, readings])

/-- Under a limit of one the Redis limiter refuses the first request. -/
theorem limiters_disagree : ¬ ∀ (key : String) (limit window : ℕ) (past : List Clock), 1 ≤ limit →
    InOrder Clock.seconds past → LimitsExactly limit window (serve true key limit window past).2 ∧
      (serve true key limit window past).2 = (serve false key limit window past).2 := by
  intro h
  obtain ⟨⟨-, hfull⟩, -⟩ := h "ip" 1 60 [⟨0, isDouble_zero, by norm_num⟩] (by decide) (by simp [InOrder])
  have hrefused : (serve true "ip" (1 : ℕ) 60 [⟨0, isDouble_zero, by norm_num⟩]).2 = [(⟨0, isDouble_zero, by norm_num⟩, false)] := by decide +kernel
  rw [hrefused] at hfull
  have hnone : 1 ≤ 0 := hfull.1 rfl
  omega

end Agreement

end Transform.Api
