import Mathlib.Tactic.SplitIfs
import Transform.Lib.Machine
import Transform.Web.ApiClient

/-!
# Web.RequestCache — the cache of reads by itself

Runs, invalidations and the loads that settle in between, one callback after the other.  `invalidateAll` forgets the loads in
flight and `invalidate` does not: what a run is given is as new as it should be exactly when no key is invalidated while a load
of it is in flight (`cache_good_iff`).
-/

namespace Transform.Web

open Lib

variable {V : Type}

/-! ## The cache and its loads -/

section Loads

/-- How a load settles. -/
inductive LoadOutcome (V : Type)
  | fulfilled (value : Option V)
  | rejected

/-- Where a load is: not settled; settled at a time, and seen by `then`; and done with `finally`, so that the promise of its
callers settles. -/
inductive LoadStage (V : Type)
  | loading
  | settled (outcome : LoadOutcome V) (settledAt : ℤ)
  | returned (outcome : LoadOutcome V) (settledAt : ℤ)

/-- A load with what its callbacks know.  `superseded` says that its key or everything was invalidated since it began. -/
structure Load (V : Type) where
  key : String
  ttlMs : ℤ
  startedAt : ℕ
  superseded : Bool := false
  stage : LoadStage V := .loading

/-- The promise of its callers is not settled. -/
def Load.InFlight (load : Load V) : Prop :=
  match load.stage with
  | .returned .. => False
  | _ => True

def Load.Gave (load : Load V) (value : Option V) (settledAt : ℤ) : Prop :=
  load.stage = .settled (.fulfilled value) settledAt ∨ load.stage = .returned (.fulfilled value) settledAt

/-- The cache, what its clock shows, and the loads so far by number.  The tag of an entry is the number of its load. -/
structure Reads (V : Type) where
  cache : RequestCache V := {}
  clock : ℤ
  loads : ℕ → Option (Load V) := fun _ => none
  started : ℕ := 0

/-- What a run is given. -/
inductive Given (V : Type)
  | shared (loader : ℕ)
  | remembered (entry : CacheEntry V)
  | load

inductive CacheEvent (V : Type)
  | tick (now : ℤ)
  | run (key : String) (ttlMs : ℤ)
  | invalidate (key : String)
  | invalidateAll
  | settle (loader : ℕ) (outcome : LoadOutcome V)
  | release (loader : ℕ)

namespace RequestCache

variable (cache : RequestCache V)

def invalidate (key : String) : RequestCache V := { cache with entries := Function.update cache.entries key none }

end RequestCache

namespace Reads

variable (s : Reads V)

def given (key : String) (ttlMs : ℤ) : Given V :=
  match s.cache.inFlight key with
  | some loader => .shared loader
  | none =>
    match s.cache.fresh key ttlMs s.clock with
    | some entry => .remembered entry
    | none => .load

def setLoad (loader : ℕ) (load : Load V) : Reads V := { s with loads := Function.update s.loads loader (some load) }

/-- `run`. -/
def run (key : String) (ttlMs : ℤ) : Reads V :=
  match s.given key ttlMs with
  | .load =>
    { s.setLoad s.started { key, ttlMs, startedAt := s.cache.generation } with
      cache := { s.cache with inFlight := Function.update s.cache.inFlight key (some s.started) }
      started := s.started + 1 }
  | _ => s

def supersede (marked : String → Bool) : ℕ → Option (Load V) := fun loader =>
  (s.loads loader).map fun load => { load with superseded := load.superseded || marked load.key }

def invalidate (key : String) : Reads V :=
  { s with cache := s.cache.invalidate key, loads := s.supersede fun other => other = key }

def invalidateAll : Reads V := { s with cache := s.cache.invalidateAll, loads := s.supersede fun _ => true }

/-- The `then` of a load; a rejection passes it by. -/
def settle (loader : ℕ) (load : Load V) (outcome : LoadOutcome V) : Reads V :=
  let s := s.setLoad loader { load with stage := .settled outcome s.clock }
  match outcome with
  | .fulfilled value => { s with cache := s.cache.remember load.key load.ttlMs load.startedAt ⟨value, s.clock, loader⟩ }
  | .rejected => s

/-- The `finally` of a load. -/
def release (loader : ℕ) (load : Load V) (outcome : LoadOutcome V) (settledAt : ℤ) : Reads V :=
  { s.setLoad loader { load with stage := .returned outcome settledAt } with cache := s.cache.release load.key loader }

def step (s : Reads V) : CacheEvent V → Option (Reads V)
  | .tick now => some { s with clock := now }
  | .run key ttlMs => some (s.run key ttlMs)
  | .invalidate key => some (s.invalidate key)
  | .invalidateAll => some s.invalidateAll
  | .settle loader outcome =>
    match s.loads loader with
    | some load =>
      match load.stage with
      | .loading => some (s.settle loader load outcome)
      | _ => none
    | none => none
  | .release loader =>
    match s.loads loader with
    | some load =>
      match load.stage with
      | .settled outcome settledAt => some (s.release loader load outcome settledAt)
      | _ => none
    | none => none

end Reads

end Loads

/-! ## The property -/

section Property

/-- What a run is given comes of a load of the key that no invalidation followed; a remembered value was one, and it is not as
old as the run allows; and a load that is shared has not returned. -/
def Given.Good (s : Reads V) (key : String) (ttlMs : ℤ) : Given V → Prop
  | .shared loader => ∃ load, s.loads loader = some load ∧ load.key = key ∧ load.superseded = false ∧ load.InFlight
  | .remembered entry => ∃ load settledAt, s.loads entry.session = some load ∧ load.key = key ∧ load.superseded = false ∧
      load.Gave entry.value settledAt ∧ s.clock - settledAt < ttlMs
  | .load => True

/-- A load that a new caller could join: in flight, and everything was last invalidated before it began. -/
def Reads.Joinable (s : Reads V) (loader : ℕ) (load : Load V) : Prop :=
  s.loads loader = some load ∧ load.InFlight ∧ load.startedAt = s.cache.generation

/-- Whatever run comes next, and at most one load of each key to join. -/
structure Reads.Good (s : Reads V) : Prop where
  given : ∀ key ttlMs, (s.given key ttlMs).Good s key ttlMs
  one : ∀ {i j load other}, s.Joinable i load → s.Joinable j other → load.key = other.key → i = j

end Property

/-! ## What every step keeps -/

section Steps

variable {s s' : Reads V} {loader : ℕ} {load : Load V} {key : String} {ttlMs : ℤ}

/-- The numbers of the loads, and what the slots and the entries stand for. -/
structure Reads.Inv (s : Reads V) : Prop where
  numbered : ∀ {loader}, s.started ≤ loader → s.loads loader = none
  earlier : ∀ {loader load}, s.loads loader = some load → load.startedAt ≤ s.cache.generation
  slot : ∀ {key loader}, s.cache.inFlight key = some loader ↔ ∃ load, s.Joinable loader load ∧ load.key = key
  entry : ∀ {key entry}, s.cache.entries key = some entry → ∃ load, s.loads entry.session = some load ∧ load.key = key ∧
    load.Gave entry.value entry.storedAt ∧ load.startedAt = s.cache.generation

theorem Load.not_gave_of_loading {value : Option V} {settledAt : ℤ} (h : load.stage = .loading) :
    ¬ load.Gave value settledAt := by
  rintro (hgave | hgave) <;> cases h.symm.trans hgave

theorem Load.inFlight_of_stage {stage : LoadStage V} (h : load.stage = stage)
    (hstage : ∀ outcome settledAt, stage ≠ .returned outcome settledAt) : load.InFlight := by
  unfold Load.InFlight
  split
  · rename_i outcome settledAt hreturned
    exact hstage outcome settledAt (h.symm.trans hreturned)
  · trivial

theorem supersede_eq_some {marked : String → Bool} {load' : Load V} : s.supersede marked loader = some load' ↔
    ∃ load, s.loads loader = some load ∧ { load with superseded := load.superseded || marked load.key } = load' :=
  Option.map_eq_some_iff

theorem loads_invalidate : (s.invalidate key).loads = s.supersede fun other => other = key := rfl

theorem loads_invalidateAll : s.invalidateAll.loads = s.supersede fun _ => true := rfl

theorem run_eq (h : s.given key ttlMs = .load) : s.run key ttlMs =
    { s.setLoad s.started { key, ttlMs, startedAt := s.cache.generation } with
      cache := { s.cache with inFlight := Function.update s.cache.inFlight key (some s.started) }
      started := s.started + 1 } := by
  unfold Reads.run
  rw [h]

theorem run_self (h : s.given key ttlMs ≠ .load) : s.run key ttlMs = s := by
  unfold Reads.run
  split
  · exact absurd ‹_› h
  · rfl

theorem inFlight_of_given (h : s.given key ttlMs = .load) : s.cache.inFlight key = none := by
  unfold Reads.given at h
  split at h
  · cases h
  · assumption

theorem loads_setLoad {other : ℕ} : (s.setLoad loader load).loads other =
    if other = loader then some load else s.loads other := Function.update_apply ..

theorem inv_run (h : s.Inv) : (s.run key ttlMs).Inv := by
  by_cases hgiven : s.given key ttlMs = .load
  · have hnone := inFlight_of_given hgiven
    have hnew : s.loads s.started = none := h.numbered (Nat.le_refl _)
    have hjoin : ∀ {loader load}, (s.run key ttlMs).Joinable loader load ↔
        (loader = s.started ∧ load = { key, ttlMs, startedAt := s.cache.generation }) ∨ s.Joinable loader load := by
      intro loader load
      rw [run_eq hgiven]
      unfold Reads.Joinable
      dsimp only
      rw [loads_setLoad]
      split_ifs with hloader
      · rw [hloader, hnew]
        constructor
        · rintro ⟨hload, -⟩
          cases hload
          exact .inl ⟨rfl, rfl⟩
        · rintro (⟨-, rfl⟩ | ⟨hload, -⟩)
          · exact ⟨rfl, trivial, rfl⟩
          · cases hload
      · exact ⟨.inr, fun hload => hload.resolve_left fun hnew => hloader hnew.1⟩
    refine ⟨fun {loader} hloader => ?_, fun {loader load} hload => ?_, fun {other loader} => ?_,
      fun {other entry} hentry => ?_⟩
    · rw [run_eq hgiven] at hloader ⊢
      dsimp only at hloader ⊢
      rw [loads_setLoad, if_neg (by omega)]
      exact h.numbered (by omega)
    · rw [run_eq hgiven] at hload ⊢
      dsimp only at hload ⊢
      rw [loads_setLoad] at hload
      split_ifs at hload
      · cases hload
        exact Nat.le_refl _
      · exact h.earlier hload
    · have hslot : (s.run key ttlMs).cache.inFlight other =
          if other = key then some s.started else s.cache.inFlight other := by
        rw [run_eq hgiven]
        exact Function.update_apply ..
      rw [hslot]
      constructor
      · intro hother
        split_ifs at hother with hkey
        · cases hother
          exact ⟨_, hjoin.2 (.inl ⟨rfl, rfl⟩), hkey.symm⟩
        · obtain ⟨load, hload, hof⟩ := h.slot.1 hother
          exact ⟨load, hjoin.2 (.inr hload), hof⟩
      · rintro ⟨load, hload, hof⟩
        rcases hjoin.1 hload with ⟨rfl, rfl⟩ | hload
        · exact if_pos hof.symm
        · have hother := h.slot.2 ⟨load, hload, hof⟩
          rw [if_neg]
          · exact hother
          · rintro rfl
            cases hnone.symm.trans hother
    · rw [run_eq hgiven] at hentry ⊢
      obtain ⟨load, hload, hof⟩ := h.entry hentry
      refine ⟨load, ?_, hof⟩
      dsimp only
      rw [loads_setLoad, if_neg]
      · exact hload
      · intro heq
        rw [heq, hnew] at hload
        cases hload
  · rw [run_self hgiven]
    exact h

theorem joinable_supersede {marked : String → Bool} {cache : RequestCache V}
    (hgeneration : cache.generation = s.cache.generation) :
    (∃ load, Reads.Joinable { s with cache, loads := s.supersede marked } loader load ∧ load.key = key) ↔
      ∃ load, s.Joinable loader load ∧ load.key = key := by
  unfold Reads.Joinable
  dsimp only
  rw [hgeneration]
  constructor
  · rintro ⟨load', ⟨hload, hflight, hof⟩, hkey⟩
    obtain ⟨load, hfound, rfl⟩ := supersede_eq_some.1 hload
    exact ⟨load, ⟨hfound, hflight, hof⟩, hkey⟩
  · rintro ⟨load, ⟨hload, hflight, hof⟩, hkey⟩
    exact ⟨_, ⟨supersede_eq_some.2 ⟨load, hload, rfl⟩, hflight, hof⟩, hkey⟩

theorem inv_invalidate (h : s.Inv) : (s.invalidate key).Inv := by
  refine ⟨fun hloader => ?_, fun hload => ?_, ?_, fun {other entry} hentry => ?_⟩
  · exact congrArg (Option.map _) (h.numbered hloader)
  · rw [loads_invalidate] at hload
    obtain ⟨load, hfound, rfl⟩ := supersede_eq_some.1 hload
    have hle : load.startedAt ≤ s.cache.generation := h.earlier hfound
    exact hle
  · exact h.slot.trans (joinable_supersede rfl).symm
  · have hentries : (s.invalidate key).cache.entries other = if other = key then none else s.cache.entries other :=
      Function.update_apply ..
    rw [hentries] at hentry
    split_ifs at hentry
    obtain ⟨load, hload, hof⟩ := h.entry hentry
    rw [loads_invalidate]
    exact ⟨_, supersede_eq_some.2 ⟨load, hload, rfl⟩, hof⟩

theorem inv_invalidateAll (h : s.Inv) : s.invalidateAll.Inv := by
  refine ⟨fun hloader => ?_, fun hload => ?_, fun {other loader} => ⟨fun hslot => ?_, ?_⟩,
    fun {other entry} hentry => ?_⟩
  · exact congrArg (Option.map _) (h.numbered hloader)
  · rw [loads_invalidateAll] at hload
    obtain ⟨load, hfound, rfl⟩ := supersede_eq_some.1 hload
    have hle : load.startedAt ≤ s.cache.generation := h.earlier hfound
    exact Nat.le_succ_of_le hle
  · cases hslot
  · rintro ⟨load', ⟨hload, -, hof⟩, -⟩
    rw [loads_invalidateAll] at hload
    obtain ⟨load, hfound, rfl⟩ := supersede_eq_some.1 hload
    have hle : load.startedAt ≤ s.cache.generation := h.earlier hfound
    have heq : load.startedAt = s.cache.generation + 1 := hof
    omega
  · cases hentry

/-- A load moves on: its key and its beginning stay, the other loads too, and no number is given. -/
structure Moved (s s' : Reads V) (loader : ℕ) (load load' : Load V) : Prop where
  found : s.loads loader = some load
  loads : ∀ other, s'.loads other = if other = loader then some load' else s.loads other
  generation : s'.cache.generation = s.cache.generation
  started : s'.started = s.started
  key : load'.key = load.key
  startedAt : load'.startedAt = load.startedAt

theorem slot_iff (h : s.Inv) (hload : s.loads loader = some load) : s.cache.inFlight key = some loader ↔
    load.InFlight ∧ load.startedAt = s.cache.generation ∧ load.key = key := by
  rw [h.slot]
  constructor
  · rintro ⟨found, ⟨hfound, hflight, hof⟩, hk⟩
    cases hload.symm.trans hfound
    exact ⟨hflight, hof, hk⟩
  · rintro ⟨hflight, hof, hk⟩
    exact ⟨load, ⟨hload, hflight, hof⟩, hk⟩

variable {load' : Load V}

theorem Moved.numbered (hm : Moved s s' loader load load') (h : s.Inv) {other : ℕ} (hother : s'.started ≤ other) :
    s'.loads other = none := by
  rw [hm.started] at hother
  rw [hm.loads, if_neg]
  · exact h.numbered hother
  · rintro rfl
    cases (h.numbered hother).symm.trans hm.found

theorem Moved.earlier (hm : Moved s s' loader load load') (h : s.Inv) {other : ℕ} {found : Load V}
    (hfound : s'.loads other = some found) : found.startedAt ≤ s'.cache.generation := by
  rw [hm.loads] at hfound
  rw [hm.generation]
  split_ifs at hfound
  · cases hfound
    rw [hm.startedAt]
    exact h.earlier hm.found
  · exact h.earlier hfound

theorem Moved.joinable (hm : Moved s s' loader load load') {other : ℕ} :
    (∃ found, s'.Joinable other found ∧ found.key = key) ↔
      if other = loader then load'.InFlight ∧ load.startedAt = s.cache.generation ∧ load.key = key
      else ∃ found, s.Joinable other found ∧ found.key = key := by
  unfold Reads.Joinable
  rw [hm.generation, hm.loads, ← hm.key, ← hm.startedAt]
  split_ifs with hother
  · constructor
    · rintro ⟨found, ⟨hfound, hflight, hof⟩, hk⟩
      cases hfound
      exact ⟨hflight, hof, hk⟩
    · rintro ⟨hflight, hof, hk⟩
      exact ⟨load', ⟨rfl, hflight, hof⟩, hk⟩
  · exact Iff.rfl

theorem remember_generation {entry : CacheEntry V} {startedAt : ℕ} (cache : RequestCache V) :
    (cache.remember key ttlMs startedAt entry).generation = cache.generation := by
  unfold RequestCache.remember
  split_ifs <;> rfl

theorem remember_inFlight {entry : CacheEntry V} {startedAt : ℕ} (cache : RequestCache V) :
    (cache.remember key ttlMs startedAt entry).inFlight = cache.inFlight := by
  unfold RequestCache.remember
  split_ifs <;> rfl

theorem entry_settle {outcome : LoadOutcome V} {entry : CacheEntry V}
    (h : (s.settle loader load outcome).cache.entries key = some entry) : s.cache.entries key = some entry ∨
      ∃ value, outcome = .fulfilled value ∧ entry = ⟨value, s.clock, loader⟩ ∧ key = load.key ∧
        load.startedAt = s.cache.generation := by
  rcases outcome with value | _
  · have hcache : (s.settle loader load (.fulfilled value)).cache =
        s.cache.remember load.key load.ttlMs load.startedAt ⟨value, s.clock, loader⟩ := rfl
    rw [hcache, RequestCache.remember] at h
    split_ifs at h with hkept
    · dsimp only at h
      rw [Function.update_apply] at h
      split_ifs at h with hkey
      · cases h
        exact .inr ⟨value, rfl, rfl, hkey, hkept.2⟩
      · exact .inl h
    · exact .inl h
  · exact .inl h

theorem settle_generation {outcome : LoadOutcome V} :
    (s.settle loader load outcome).cache.generation = s.cache.generation := by
  cases outcome
  · exact remember_generation _
  · rfl

theorem settle_inFlight {outcome : LoadOutcome V} :
    (s.settle loader load outcome).cache.inFlight = s.cache.inFlight := by
  cases outcome
  · exact remember_inFlight _
  · rfl

theorem settle_loads {outcome : LoadOutcome V} {other : ℕ} : (s.settle loader load outcome).loads other =
    if other = loader then some { load with stage := .settled outcome s.clock } else s.loads other := by
  cases outcome <;> exact loads_setLoad

theorem moved_settle {outcome : LoadOutcome V} (h : s.loads loader = some load) :
    Moved s (s.settle loader load outcome) loader load { load with stage := .settled outcome s.clock } :=
  ⟨h, fun _ => settle_loads, settle_generation, by cases outcome <;> rfl, rfl, rfl⟩

theorem inv_settle {outcome : LoadOutcome V} (h : s.Inv) (hload : s.loads loader = some load)
    (hstage : load.stage = .loading) : (s.settle loader load outcome).Inv := by
  have hm : Moved s (s.settle loader load outcome) loader load _ := moved_settle hload
  refine ⟨hm.numbered h, hm.earlier h, fun {other i} => ?_, fun {other entry} hentry => ?_⟩
  · have hflight : load.InFlight := Load.inFlight_of_stage hstage (fun _ _ hreturned => by cases hreturned)
    have hsettled : Load.InFlight { load with stage := .settled outcome s.clock } := trivial
    rw [settle_inFlight, hm.joinable]
    split_ifs with hother
    · rw [hother, slot_iff h hload]
      exact and_congr_left fun _ => iff_of_true hflight hsettled
    · exact h.slot
  · rw [settle_generation]
    rcases entry_settle hentry with hentry | ⟨value, rfl, rfl, rfl, hof⟩
    · obtain ⟨found, hfound, hk, hgave, hof⟩ := h.entry hentry
      refine ⟨found, ?_, hk, hgave, hof⟩
      rw [settle_loads, if_neg]
      · exact hfound
      · intro heq
        rw [heq] at hfound
        cases hload.symm.trans hfound
        exact Load.not_gave_of_loading hstage hgave
    · exact ⟨_, (@settle_loads _ s loader load _ loader).trans (if_pos rfl), rfl, .inl rfl, hof⟩

theorem release_inFlight {cache : RequestCache V} {other : String} : (cache.release key loader).inFlight other =
    if cache.inFlight key = some loader ∧ other = key then none else cache.inFlight other := by
  unfold RequestCache.release
  split_ifs with hown hboth hboth
  · rw [hboth.2]
    exact Function.update_self ..
  · exact Function.update_of_ne (fun hkey => hboth ⟨hown, hkey⟩) ..
  · exact absurd hboth.1 hown
  · rfl

theorem release_generation {cache : RequestCache V} : (cache.release key loader).generation = cache.generation := by
  unfold RequestCache.release
  split_ifs <;> rfl

theorem release_entries {cache : RequestCache V} : (cache.release key loader).entries = cache.entries := by
  unfold RequestCache.release
  split_ifs <;> rfl

theorem gave_release {outcome : LoadOutcome V} {settledAt storedAt : ℤ} {value : Option V}
    (hstage : load.stage = .settled outcome settledAt) (h : load.Gave value storedAt) :
    Load.Gave { load with stage := .returned outcome settledAt } value storedAt := by
  rcases h with h | h
  · cases hstage.symm.trans h
    exact .inr rfl
  · cases hstage.symm.trans h

theorem moved_release {outcome : LoadOutcome V} {settledAt : ℤ} (h : s.loads loader = some load) :
    Moved s (s.release loader load outcome settledAt) loader load { load with stage := .returned outcome settledAt } :=
  ⟨h, fun _ => loads_setLoad, release_generation, rfl, rfl, rfl⟩

theorem inv_release {outcome : LoadOutcome V} {settledAt : ℤ} (h : s.Inv) (hload : s.loads loader = some load)
    (hstage : load.stage = .settled outcome settledAt) : (s.release loader load outcome settledAt).Inv := by
  have hm : Moved s (s.release loader load outcome settledAt) loader load _ := moved_release hload
  refine ⟨hm.numbered h, hm.earlier h, fun {other i} => ?_, fun {other entry} hentry => ?_⟩
  · have hreturned : ¬ Load.InFlight { load with stage := .returned outcome settledAt } := not_false
    have hslot : (s.release loader load outcome settledAt).cache.inFlight other =
        if s.cache.inFlight load.key = some loader ∧ other = load.key then none else s.cache.inFlight other :=
      release_inFlight
    rw [hslot, hm.joinable]
    split_ifs with hown hi hi
    · exact iff_of_false (fun hnone => by cases hnone) fun hjoin => hreturned hjoin.1
    · refine iff_of_false (fun hnone => by cases hnone) fun hjoin => hi ?_
      have hsame := h.slot.2 hjoin
      rw [hown.2, hown.1] at hsame
      exact (Option.some.inj hsame).symm
    · refine iff_of_false (fun hother => hown ?_) fun hjoin => hreturned hjoin.1
      rw [hi] at hother
      have hk : load.key = other := ((slot_iff h hload).1 hother).2.2
      exact ⟨hk ▸ hother, hk.symm⟩
    · exact h.slot
  · have hkept : (s.release loader load outcome settledAt).cache.entries = s.cache.entries := release_entries
    rw [hkept] at hentry
    rw [hm.generation]
    obtain ⟨found, hfound, hk, hgave, hof⟩ := h.entry hentry
    rw [hm.loads]
    split_ifs with hother
    · rw [hother] at hfound
      cases hload.symm.trans hfound
      exact ⟨_, rfl, hk, gave_release hstage hgave, hof⟩
    · exact ⟨found, hfound, hk, hgave, hof⟩

theorem step_settle {outcome : LoadOutcome V} (hs : s.step (.settle loader outcome) = some s') :
    ∃ load, s.loads loader = some load ∧ load.stage = .loading ∧ s' = s.settle loader load outcome := by
  rw [Reads.step] at hs
  split at hs
  · rename_i load hload
    split at hs
    · rename_i hstage
      exact ⟨load, hload, hstage, (Option.some.inj hs).symm⟩
    · cases hs
  · cases hs

theorem step_release (hs : s.step (.release loader) = some s') : ∃ load outcome settledAt,
    s.loads loader = some load ∧ load.stage = .settled outcome settledAt ∧ s' = s.release loader load outcome settledAt := by
  rw [Reads.step] at hs
  split at hs
  · rename_i load hload
    split at hs
    · rename_i outcome settledAt hstage
      exact ⟨load, outcome, settledAt, hload, hstage, (Option.some.inj hs).symm⟩
    · cases hs
  · cases hs

theorem reads_inv_step {e : CacheEvent V} (h : s.Inv) (hs : s.step e = some s') : s'.Inv := by
  cases e with
  | tick now =>
    cases hs
    exact ⟨h.numbered, h.earlier, h.slot, h.entry⟩
  | run key ttlMs =>
    cases hs
    exact inv_run h
  | invalidate key =>
    cases hs
    exact inv_invalidate h
  | invalidateAll =>
    cases hs
    exact inv_invalidateAll h
  | settle loader outcome =>
    obtain ⟨load, hload, hstage, rfl⟩ := step_settle hs
    exact inv_settle h hload hstage
  | release loader =>
    obtain ⟨load, outcome, settledAt, hload, hstage, rfl⟩ := step_release hs
    exact inv_release h hload hstage

end Steps

/-! ## Invalidations -/

section Invalidations

variable {s s' : Reads V} {loader : ℕ} {load load' : Load V} {key : String} {ttlMs : ℤ}

/-- No key is invalidated while a load of it is in flight. -/
def Undisturbed (s : Reads V) : CacheEvent V → Prop
  | .invalidate key => s.cache.inFlight key = none
  | _ => True

instance (s : Reads V) : ∀ e : CacheEvent V, Decidable (Undisturbed s e)
  | .invalidate key => inferInstanceAs (Decidable (s.cache.inFlight key = none))
  | .tick _ | .run _ _ | .invalidateAll | .settle _ _ | .release _ => isTrue trivial

/-- No slot and no entry is of a load that an invalidation followed. -/
structure Reads.Clean (s : Reads V) : Prop where
  slot : ∀ {key loader load}, s.cache.inFlight key = some loader → s.loads loader = some load → load.superseded = false
  entry : ∀ {key entry load}, s.cache.entries key = some entry → s.loads entry.session = some load →
    load.superseded = false

theorem clean_run (h : s.Inv) (hc : s.Clean) : (s.run key ttlMs).Clean := by
  by_cases hgiven : s.given key ttlMs = .load
  · have hnew : s.loads s.started = none := h.numbered (Nat.le_refl _)
    have hold : ∀ {loader load}, (s.run key ttlMs).loads loader = some load → load.superseded = false ∨
        s.loads loader = some load := by
      intro loader load hload
      rw [run_eq hgiven] at hload
      dsimp only at hload
      rw [loads_setLoad] at hload
      split_ifs at hload
      · cases hload
        exact .inl rfl
      · exact .inr hload
    refine ⟨fun {other loader load} hslot hload => ?_, fun {other entry load} hentry hload => ?_⟩
    · refine (hold hload).elim id fun hload => ?_
      have hcache : (s.run key ttlMs).cache.inFlight other =
          if other = key then some s.started else s.cache.inFlight other := by
        rw [run_eq hgiven]
        exact Function.update_apply ..
      rw [hcache] at hslot
      split_ifs at hslot
      · cases hslot
        cases hnew.symm.trans hload
      · exact hc.slot hslot hload
    · refine (hold hload).elim id fun hload => ?_
      rw [run_eq hgiven] at hentry
      exact hc.entry hentry hload
  · rw [run_self hgiven]
    exact hc

theorem clean_invalidate (h : s.Inv) (hc : s.Clean) (hundisturbed : s.cache.inFlight key = none) :
    (s.invalidate key).Clean := by
  have hother : ∀ {other loader load'}, (s.invalidate key).loads loader = some load' →
      (∀ load, s.loads loader = some load → load.key = other ∧ load.superseded = false) → other ≠ key →
        load'.superseded = false := by
    intro other loader load' hload hclean hne
    rw [loads_invalidate] at hload
    obtain ⟨load, hfound, rfl⟩ := supersede_eq_some.1 hload
    obtain ⟨rfl, hsuperseded⟩ := hclean load hfound
    exact Bool.or_eq_false_iff.2 ⟨hsuperseded, decide_eq_false hne⟩
  refine ⟨fun {other loader load} hslot hload => ?_, fun {other entry load} hentry hload => ?_⟩
  · have hkept : s.cache.inFlight other = some loader := hslot
    refine hother hload (fun load hfound => ⟨((slot_iff h hfound).1 hkept).2.2, hc.slot hkept hfound⟩) ?_
    rintro rfl
    cases hundisturbed.symm.trans hkept
  · have hentries : (s.invalidate key).cache.entries other = if other = key then none else s.cache.entries other :=
      Function.update_apply ..
    rw [hentries] at hentry
    split_ifs at hentry with hne
    refine hother hload (fun load hfound => ⟨?_, hc.entry hentry hfound⟩) hne
    obtain ⟨found, hof, hkey, -⟩ := h.entry hentry
    cases hof.symm.trans hfound
    exact hkey

theorem Moved.superseded (hm : Moved s s' loader load load') (hsame : load'.superseded = load.superseded) {other : ℕ}
    {found : Load V} (hfound : s'.loads other = some found) :
    ∃ before, s.loads other = some before ∧ before.superseded = found.superseded := by
  rw [hm.loads] at hfound
  split_ifs at hfound with hother
  · cases hfound
    exact ⟨load, hother ▸ hm.found, hsame.symm⟩
  · exact ⟨found, hfound, rfl⟩

theorem clean_settle {outcome : LoadOutcome V} (h : s.Inv) (hc : s.Clean) (hload : s.loads loader = some load)
    (hstage : load.stage = .loading) : (s.settle loader load outcome).Clean := by
  have hm : Moved s (s.settle loader load outcome) loader load _ := moved_settle hload
  have hflight : load.InFlight := Load.inFlight_of_stage hstage (fun _ _ hreturned => by cases hreturned)
  refine ⟨fun {other i found} hslot hfound => ?_, fun {other entry found} hentry hfound => ?_⟩
  · obtain ⟨before, hbefore, hsame⟩ := hm.superseded rfl hfound
    rw [settle_inFlight] at hslot
    exact hsame.symm.trans (hc.slot hslot hbefore)
  · obtain ⟨before, hbefore, hsame⟩ := hm.superseded rfl hfound
    refine hsame.symm.trans ?_
    rcases entry_settle hentry with hentry | ⟨value, rfl, rfl, rfl, hof⟩
    · exact hc.entry hentry hbefore
    · have hslot : s.cache.inFlight load.key = some loader := (slot_iff h hload).2 ⟨hflight, hof, rfl⟩
      exact hc.slot hslot hbefore

theorem clean_release {outcome : LoadOutcome V} {settledAt : ℤ} (hc : s.Clean) (hload : s.loads loader = some load) :
    (s.release loader load outcome settledAt).Clean := by
  have hm : Moved s (s.release loader load outcome settledAt) loader load _ := moved_release hload
  refine ⟨fun {other i found} hslot hfound => ?_, fun {other entry found} hentry hfound => ?_⟩
  · obtain ⟨before, hbefore, hsame⟩ := hm.superseded rfl hfound
    have hcache : (s.release loader load outcome settledAt).cache.inFlight other =
        if s.cache.inFlight load.key = some loader ∧ other = load.key then none else s.cache.inFlight other :=
      release_inFlight
    rw [hcache] at hslot
    split_ifs at hslot
    exact hsame.symm.trans (hc.slot hslot hbefore)
  · obtain ⟨before, hbefore, hsame⟩ := hm.superseded rfl hfound
    have hkept : (s.release loader load outcome settledAt).cache.entries = s.cache.entries := release_entries
    rw [hkept] at hentry
    exact hsame.symm.trans (hc.entry hentry hbefore)

theorem clean_step {e : CacheEvent V} (h : s.Inv) (hc : s.Clean) (hs : s.step e = some s') (hundisturbed : Undisturbed s e) :
    s'.Clean := by
  cases e with
  | tick now =>
    cases hs
    exact ⟨hc.slot, hc.entry⟩
  | run key ttlMs =>
    cases hs
    exact clean_run h hc
  | invalidate key =>
    cases hs
    exact clean_invalidate h hc hundisturbed
  | invalidateAll =>
    cases hs
    exact ⟨fun hslot => (by cases hslot), fun hentry => (by cases hentry)⟩
  | settle loader outcome =>
    obtain ⟨load, hload, hstage, rfl⟩ := step_settle hs
    exact clean_settle h hc hload hstage
  | release loader =>
    obtain ⟨load, outcome, settledAt, hload, -, rfl⟩ := step_release hs
    exact clean_release hc hload

theorem good_of_clean (h : s.Inv) (hc : s.Clean) : s.Good := by
  refine ⟨fun key ttlMs => ?_, fun {i j load other} hload hother hkey => ?_⟩
  · unfold Reads.given
    split
    · rename_i loader hslot
      obtain ⟨load, ⟨hload, hflight, -⟩, hkey⟩ := h.slot.1 hslot
      exact ⟨load, hload, hkey, hc.slot hslot hload, hflight⟩
    · split
      · rename_i entry hfresh
        obtain ⟨hentry, hyoung⟩ := Option.filter_eq_some_iff.1 hfresh
        obtain ⟨load, hload, hkey, hgave, -⟩ := h.entry hentry
        exact ⟨load, entry.storedAt, hload, hkey, hc.entry hentry hload, hgave, (of_decide_eq_true hyoung).2⟩
      · trivial
  · have hi : s.cache.inFlight load.key = some i := h.slot.2 ⟨load, hload, rfl⟩
    have hj : s.cache.inFlight load.key = some j := h.slot.2 ⟨other, hother, hkey.symm⟩
    exact Option.some.inj (hi.symm.trans hj)

/-- After an invalidation a run still joins the load in flight. -/
theorem undisturbed_of_good {e : CacheEvent V} (hs : s.step e = some s') (hgood : s'.Good) : Undisturbed s e := by
  cases e with
  | invalidate key =>
    cases hs
    rcases hslot : s.cache.inFlight key with _ | loader
    · exact hslot
    · have hgiven : (s.invalidate key).given key 0 = .shared loader := by
        have hkept : (s.invalidate key).cache.inFlight key = some loader := hslot
        unfold Reads.given
        rw [hkept]
      have hshared := hgood.given key 0
      rw [hgiven] at hshared
      obtain ⟨load', hload', hkey, hsuperseded, -⟩ := hshared
      rw [loads_invalidate] at hload'
      obtain ⟨load, -, rfl⟩ := supersede_eq_some.1 hload'
      have hmarked : (load.superseded || decide (load.key = key)) = true := by
        rw [decide_eq_true hkey, Bool.or_true]
      cases hmarked.symm.trans hsuperseded
  | _ => trivial

/-- A cache that was just made. -/
def Reads.opened (now : ℤ) : Reads V := { clock := now }

theorem inv_newCache {now : ℤ} : (Reads.opened now : Reads V).Inv :=
  ⟨fun _ => rfl, fun hload => (by cases hload),
    ⟨fun hslot => (by cases hslot), fun ⟨_, hload, _⟩ => (by cases hload.1)⟩, fun hentry => (by cases hentry)⟩

/-- Along a run the cache is good exactly when no key is invalidated while a load of it is in flight. -/
theorem cache_good_iff {now : ℤ} {tr : List (CacheEvent V × Reads V)} (h : Path Reads.step (Reads.opened now) tr) :
    Throughout (fun _ _ s' => s'.Good) (Reads.opened now) tr ↔
      Throughout (fun s e _ => Undisturbed s e) (Reads.opened now) tr := by
  constructor
  · have hback : ∀ (s : Reads V) (e : CacheEvent V) (s' : Reads V), True → s.step e = some s' → s'.Good →
        True ∧ Undisturbed s e := fun _ _ _ _ hs hgood => ⟨trivial, undisturbed_of_good hs hgood⟩
    exact throughout_of_step hback trivial h
  · refine throughout_of_step (I := fun s : Reads V => s.Inv ∧ s.Clean) (fun s e s' hi hs hundisturbed => ?_)
      ⟨inv_newCache, ⟨fun hslot => (by cases hslot), fun hentry => (by cases hentry)⟩⟩ h
    have hinv := reads_inv_step hi.1 hs
    have hclean := clean_step hi.1 hi.2 hs hundisturbed
    exact ⟨⟨hinv, hclean⟩, good_of_clean hinv hclean⟩

/-- A key is invalidated after its load has returned. -/
theorem good_after_return :
    Throughout (fun _ _ s' => s'.Good) (Reads.opened 0) (trace Reads.step (Reads.opened 0)
      [.run "a" 10, .run "a" 10, .settle 0 (.fulfilled (some 1)), .release 0, .run "a" 10, .invalidate "a", .run "a" 10]) :=
  (cache_good_iff (path_trace _ _)).2 (by decide +kernel)

/-- A run after an invalidation shares the load that began before it. -/
theorem superseded_load_shared : ¬ ∀ tr : List (CacheEvent ℕ × Reads ℕ), Path Reads.step (Reads.opened 0) tr →
    Throughout (fun _ _ s' => s'.Good) (Reads.opened 0) tr := by
  intro h
  have hrun := h (trace Reads.step (Reads.opened 0) [.run "a" 10, .invalidate "a"]) (path_trace _ _)
  have hgood : (((Reads.opened 0).run "a" 10).invalidate "a").Good := hrun.2.1
  have hundisturbed : Undisturbed ((Reads.opened 0 : Reads ℕ).run "a" 10) (.invalidate "a") := undisturbed_of_good rfl hgood
  exact absurd hundisturbed (by decide +kernel)

end Invalidations

end Transform.Web
