import Mathlib.Logic.Function.Basic
import Transform.Lib.Proc

/-!
# Lib.Interleave — threads of programs over one shared world

A `Sys` gives the shared world of a set of threads: which programs may start, which outcomes an operation may
have, and what it does to the world.  A thread carries a tag (what it is) beside its program.  One step starts
a thread, lets one thread make one exchange, or ends a thread: the last also where its program has not returned,
so a crash at any point is among the runs.

* `Steps c tr`: `tr` is a run from `c`, each step with the configuration it leads to.
* `Along φ c tr`: `φ` holds of every step of it.
* `Sys.Preserved`: the two local conditions (on a start and on an exchange) under which an invariant of the
  world and one of each thread hold in every configuration of a run; `along_of_preserved` is the run lemma.
* `along_iff`: a property of every configuration of a run, against a condition on its steps.
* `Sys.drive`: the run of a schedule under given answers, for concrete runs.
-/

namespace Transform.Lib

variable {S : Sig}

/-- A shared world, the threads that may enter it, and the meaning of their operations. -/
structure Sys (S : Sig) where
  World : Type
  Tag : Type
  spawn : World → ℕ → Tag → Proc S Unit → World → Prop
  Allowed : World → ℕ → Tag → Event S → Prop
  apply : World → ℕ → Tag → Event S → World

/-- The shared world and the running threads. -/
structure Sys.Config (A : Sys S) where
  world : A.World
  threads : ℕ → Option (A.Tag × Proc S Unit)

/-- What a step does. -/
inductive Sys.Label (A : Sys S)
  | start (i : ℕ) (tag : A.Tag)
  | act (i : ℕ) (tag : A.Tag) (ev : Event S)
  | exit (i : ℕ)

variable {A : Sys S}

/-- One step of the system. -/
inductive Sys.Step (A : Sys S) : A.Config → A.Label → A.Config → Prop
  | start {c : A.Config} {i : ℕ} {tag : A.Tag} {p : Proc S Unit} {w : A.World} (hfree : c.threads i = none)
      (hspawn : A.spawn c.world i tag p w) :
      Step A c (.start i tag) ⟨w, Function.update c.threads i (some (tag, p))⟩
  | act {c : A.Config} {i : ℕ} {tag : A.Tag} {op : S.Op} {k : Except S.Err (S.Ans op) → Proc S Unit}
      (hrun : c.threads i = some (tag, .call op k)) {out : Except S.Err (S.Ans op)} {took : Bool}
      {h : ∀ a, out = .ok a → took = true} (hall : A.Allowed c.world i tag ⟨op, out, took, h⟩) :
      Step A c (.act i tag ⟨op, out, took, h⟩)
        ⟨A.apply c.world i tag ⟨op, out, took, h⟩, Function.update c.threads i (some (tag, k out))⟩
  | exit {c : A.Config} {i : ℕ} : Step A c (.exit i) ⟨c.world, Function.update c.threads i none⟩

/-! ## Runs -/

section Runs

/-- `φ` holds of every step of `tr`, taken from `c`. -/
def Along (φ : A.Config → A.Label → A.Config → Prop) : A.Config → List (A.Label × A.Config) → Prop
  | _, [] => True
  | c, (l, c') :: tr => φ c l c' ∧ Along φ c' tr

/-- `tr` is a run of the system from `c`. -/
def Sys.Steps (A : Sys S) : A.Config → List (A.Label × A.Config) → Prop := Along A.Step

/-- The configuration a run ends in. -/
def lastConfig : A.Config → List (A.Label × A.Config) → A.Config
  | c, [] => c
  | _, (_, c') :: tr => lastConfig c' tr

theorem along_and {φ ψ : A.Config → A.Label → A.Config → Prop} :
    ∀ {tr : List (A.Label × A.Config)} {c : A.Config},
      Along (fun c l c' => φ c l c' ∧ ψ c l c') c tr ↔ Along φ c tr ∧ Along ψ c tr
  | [], _ => ⟨fun _ => ⟨trivial, trivial⟩, fun _ => trivial⟩
  | _ :: _, _ => by
    simp only [Along, along_and]
    exact and_and_and_comm

theorem along_mono {φ ψ : A.Config → A.Label → A.Config → Prop} (h : ∀ c l c', φ c l c' → ψ c l c') :
    ∀ {tr : List (A.Label × A.Config)} {c : A.Config}, Along φ c tr → Along ψ c tr
  | [], _, _ => trivial
  | _ :: _, _, ha => ⟨h _ _ _ ha.1, along_mono h ha.2⟩

theorem along_append {φ : A.Config → A.Label → A.Config → Prop} {tr' : List (A.Label × A.Config)} :
    ∀ {tr : List (A.Label × A.Config)} {c : A.Config}, Along φ c tr → Along φ (lastConfig c tr) tr' →
      Along φ c (tr ++ tr')
  | [], _, _, h => h
  | (_, _) :: _, _, h, h' => ⟨h.1, along_append h.2 h'⟩

theorem lastConfig_append {tr' : List (A.Label × A.Config)} : ∀ {tr : List (A.Label × A.Config)} {c : A.Config},
    lastConfig c (tr ++ tr') = lastConfig (lastConfig c tr) tr'
  | [], _ => rfl
  | (_, c') :: tr, _ => by
    have ih : lastConfig c' (tr ++ tr') = lastConfig (lastConfig c' tr) tr' := lastConfig_append
    exact ih

/-- An exchange that answers `a`. -/
theorem step_ok {c : A.Config} {i : ℕ} {tag : A.Tag} {op : S.Op} {k : Except S.Err (S.Ans op) → Proc S Unit}
    (hrun : c.threads i = some (tag, .call op k)) (a : S.Ans op) (hall : A.Allowed c.world i tag (.done op (.ok a))) :
    A.Step c (.act i tag (.done op (.ok a)))
      ⟨A.apply c.world i tag (.done op (.ok a)), Function.update c.threads i (some (tag, k (.ok a)))⟩ :=
  .act hrun hall

theorem along_of_step {I : A.Config → Prop} {φ ψ : A.Config → A.Label → A.Config → Prop}
    (hstep : ∀ c l c', I c → A.Step c l c' → φ c l c' → I c' ∧ ψ c l c') :
    ∀ {tr : List (A.Label × A.Config)} {c : A.Config}, I c → A.Steps c tr → Along φ c tr → Along ψ c tr
  | [], _, _, _, _ => trivial
  | _ :: _, _, hI, hs, hφ =>
    have h := hstep _ _ _ hI hs.1 hφ.1
    ⟨h.2, along_of_step hstep h.1 hs.2 hφ.2⟩

/-- What every step keeps holds at the end of a run. -/
theorem last_of_step {I : A.Config → Prop} {φ : A.Config → A.Label → A.Config → Prop}
    (hstep : ∀ c l c', I c → A.Step c l c' → φ c l c' → I c') :
    ∀ {tr : List (A.Label × A.Config)} {c : A.Config}, I c → A.Steps c tr → Along φ c tr →
      I (lastConfig c tr)
  | [], _, hI, _, _ => hI
  | (_, _) :: tr, _, hI, hs, hφ => by
    have ih := last_of_step hstep (hstep _ _ _ hI hs.1 hφ.1) hs.2 hφ.2
    exact ih

end Runs

/-! ## Invariants of the world and of each thread -/

section Invariants

/-- `I` holds of the world and `T` of every running thread. -/
def Sys.Inv (A : Sys S) (I : A.World → Prop) (T : A.World → ℕ → A.Tag → Proc S Unit → Prop)
    (c : A.Config) : Prop :=
  I c.world ∧ ∀ i tag p, c.threads i = some (tag, p) → T c.world i tag p

/-- The local conditions for `I` and `T`: a start and an exchange keep `I`, establish `T` of the thread that
moved, and leave `T` of every other thread standing.  Exchanges are taken only where `φ` holds. -/
structure Sys.Preserved (A : Sys S) (I : A.World → Prop) (T : A.World → ℕ → A.Tag → Proc S Unit → Prop)
    (φ : A.Config → ℕ → A.Tag → Event S → Prop) : Prop where
  start_world : ∀ {w w' i tag p}, I w → A.spawn w i tag p w' → I w'
  start_thread : ∀ {w w' i tag p}, I w → A.spawn w i tag p w' → T w' i tag p
  start_other : ∀ {w w' i tag p}, I w → A.spawn w i tag p w' → ∀ {j tag' q}, j ≠ i → T w j tag' q →
    T w' j tag' q
  act_world : ∀ {c i tag op k out took h}, I c.world → T c.world i tag (.call op k) →
    A.Allowed c.world i tag ⟨op, out, took, h⟩ → φ c i tag ⟨op, out, took, h⟩ →
    I (A.apply c.world i tag ⟨op, out, took, h⟩)
  act_thread : ∀ {c i tag op k out took h}, I c.world → T c.world i tag (.call op k) →
    A.Allowed c.world i tag ⟨op, out, took, h⟩ → φ c i tag ⟨op, out, took, h⟩ →
    T (A.apply c.world i tag ⟨op, out, took, h⟩) i tag (k out)
  act_other : ∀ {c i tag op k out took h}, I c.world → T c.world i tag (.call op k) →
    A.Allowed c.world i tag ⟨op, out, took, h⟩ → φ c i tag ⟨op, out, took, h⟩ →
    ∀ {j tag' q}, j ≠ i → c.threads j = some (tag', q) → T c.world j tag' q →
    T (A.apply c.world i tag ⟨op, out, took, h⟩) j tag' q

/-- A condition on the exchanges of a run. -/
def ActOnly (φ : A.Config → ℕ → A.Tag → Event S → Prop) (c : A.Config) : A.Label → A.Config → Prop
  | .act i tag ev, _ => φ c i tag ev
  | _, _ => True

variable {I : A.World → Prop} {T : A.World → ℕ → A.Tag → Proc S Unit → Prop}
  {φ : A.Config → ℕ → A.Tag → Event S → Prop}

/-- The step lemma: the local conditions keep the invariant. -/
theorem inv_step (hP : A.Preserved I T φ) {c c' : A.Config} {l : A.Label} (hI : A.Inv I T c)
    (hs : A.Step c l c') (hφ : ActOnly φ c l c') : A.Inv I T c' := by
  obtain ⟨hw, hT⟩ := hI
  cases hs with
  | @start i tag p w hfree hspawn =>
    refine ⟨hP.start_world hw hspawn, fun j tag' q hj => ?_⟩
    by_cases hji : j = i
    · subst hji
      obtain ⟨rfl, rfl⟩ : tag = tag' ∧ p = q := by simpa using hj
      exact hP.start_thread hw hspawn
    · replace hj : c.threads j = some (tag', q) := by simpa [hji] using hj
      exact hP.start_other hw hspawn hji (hT j tag' q hj)
  | @act i tag op k hrun out took h hall =>
    refine ⟨hP.act_world hw (hT i tag _ hrun) hall hφ, fun j tag' q hj => ?_⟩
    by_cases hji : j = i
    · subst hji
      obtain ⟨rfl, rfl⟩ : tag = tag' ∧ k out = q := by simpa using hj
      exact hP.act_thread hw (hT j tag _ hrun) hall hφ
    · replace hj : c.threads j = some (tag', q) := by simpa [hji] using hj
      exact hP.act_other hw (hT i tag _ hrun) hall hφ hji hj (hT j tag' q hj)
  | @exit i =>
    refine ⟨hw, fun j tag' q hj => ?_⟩
    by_cases hji : j = i
    · subst hji
      simp at hj
    · replace hj : c.threads j = some (tag', q) := by simpa [hji] using hj
      exact hT j tag' q hj

/-- **The run lemma**: the invariant holds before every step of a run whose exchanges meet `φ`, so what it gives
for a step holds along the run. -/
theorem along_of_preserved (hP : A.Preserved I T φ) {ψ : A.Config → A.Label → A.Config → Prop}
    (hψ : ∀ c l c', A.Inv I T c → A.Step c l c' → ActOnly φ c l c' → ψ c l c') {c : A.Config}
    {tr : List (A.Label × A.Config)} (hI : A.Inv I T c) (hs : A.Steps c tr) (hφ : Along (ActOnly φ) c tr) :
    Along ψ c tr :=
  along_of_step (fun c l c' hc hst hl => ⟨inv_step hP hc hst hl, hψ c l c' hc hst hl⟩) hI hs hφ

end Invariants

theorem last_of_along {K : A.Config → Prop} : ∀ {tr : List (A.Label × A.Config)} {c : A.Config}, K c →
    Along (fun _ _ c' => K c') c tr → K (lastConfig c tr)
  | [], _, hc, _ => hc
  | (_, _) :: tr, _, _, h => by
    have ih := last_of_along h.1 h.2
    exact ih

/-- Two properties of steps that agree wherever an invariant holds agree along a run. -/
theorem along_congr {I : A.Config → Prop} {φ ψ : A.Config → A.Label → A.Config → Prop}
    (hI : ∀ c l c', I c → A.Step c l c' → I c')
    (h : ∀ c l c', I c → A.Step c l c' → (φ c l c' ↔ ψ c l c')) :
    ∀ {tr : List (A.Label × A.Config)} {c : A.Config}, I c → A.Steps c tr → (Along φ c tr ↔ Along ψ c tr)
  | [], _, _, _ => Iff.rfl
  | (l, c') :: _, c, hi, hs =>
    and_congr (h c l c' hi hs.1) (along_congr hI h (hI c l c' hi hs.1) hs.2)

/-- Along a run, a property `K` that holds at its start holds of every configuration and `ψ` of every step exactly if
`φ` holds of every step, where from a configuration with `K` a step keeps it and meets `ψ` exactly if it meets `φ`. -/
theorem along_iff_of_step {I K : A.Config → Prop} {φ ψ : A.Config → A.Label → A.Config → Prop}
    (hI : ∀ c l c', I c → A.Step c l c' → I c')
    (hK : ∀ c l c', I c → K c → A.Step c l c' → (K c' ∧ ψ c l c' ↔ φ c l c')) :
    ∀ {tr : List (A.Label × A.Config)} {c : A.Config}, I c → K c → A.Steps c tr →
      (Along (fun c l c' => K c' ∧ ψ c l c') c tr ↔ Along φ c tr)
  | [], _, _, _, _ => Iff.rfl
  | (l, c') :: tr, c, hi, hk, hs => by
    have hstep := hK c l c' hi hk hs.1
    have ih : K c' → (Along (fun c l c' => K c' ∧ ψ c l c') c' tr ↔ Along φ c' tr) := fun hk' =>
      along_iff_of_step hI hK (hI c l c' hi hs.1) hk' hs.2
    constructor
    · rintro ⟨hkψ, hrest⟩
      exact ⟨hstep.1 hkψ, (ih hkψ.1).1 hrest⟩
    · rintro ⟨hφ, hrest⟩
      exact ⟨hstep.2 hφ, (ih (hstep.2 hφ).1).2 hrest⟩

/-- Along a run, a property that holds at its start holds of every configuration exactly if `φ` holds of every step,
where a step from a configuration with the property keeps it exactly if `φ` holds of the step. -/
theorem along_iff {I K : A.Config → Prop} {φ : A.Config → A.Label → A.Config → Prop}
    (hI : ∀ c l c', I c → A.Step c l c' → I c')
    (hK : ∀ c l c', I c → K c → A.Step c l c' → (K c' ↔ φ c l c')) {tr : List (A.Label × A.Config)} {c : A.Config}
    (hi : I c) (hk : K c) (hs : A.Steps c tr) : Along (fun _ _ c' => K c') c tr ↔ Along φ c tr := by
  have h := along_iff_of_step (K := K) (φ := φ) (ψ := fun _ _ _ => True) hI (fun c l c' hi hk hst => by
    rw [and_true]
    exact hK c l c' hi hk hst) hi hk hs
  simpa only [and_true] using h

/-! ## Concrete runs -/

section Drive

instance decidableActOnly {φ : A.Config → ℕ → A.Tag → Event S → Prop} [h : ∀ c i tag ev, Decidable (φ c i tag ev)]
    (c : A.Config) : ∀ (l : A.Label) (c' : A.Config), Decidable (ActOnly φ c l c')
  | .act i tag ev, _ => h c i tag ev
  | .start _ _, _ | .exit _, _ => isTrue trivial

instance decidableAlong {φ : A.Config → A.Label → A.Config → Prop} [h : ∀ c l c', Decidable (φ c l c')] :
    ∀ (c : A.Config) (tr : List (A.Label × A.Config)), Decidable (Along φ c tr)
  | _, [] => isTrue trivial
  | c, (l, c') :: tr => @instDecidableAnd _ _ (h c l c') (decidableAlong c' tr)

/-- Answers for the operations of a run, and a check that the system allows them. -/
structure Sys.Driver (A : Sys S) where
  reply : A.World → (op : S.Op) → Except S.Err (S.Ans op)
  check : A.World → ℕ → A.Tag → Event S → Bool
  sound : ∀ {w i tag ev}, check w i tag ev = true → A.Allowed w i tag ev

/-- A program to start where the world permits it. -/
structure Sys.Starter (A : Sys S) (i : ℕ) where
  start : A.World → Option (A.Tag × Proc S Unit × A.World)
  sound : ∀ {w tag p w'}, start w = some (tag, p, w') → A.spawn w i tag p w'

/-- One move of a schedule: start a thread, let it make its next exchange, let that exchange raise, or end it. -/
inductive Sys.Move (A : Sys S)
  | start (i : ℕ) (starter : A.Starter i)
  | go (i : ℕ)
  | fail (i : ℕ) (e : S.Err) (took : Bool)
  | exit (i : ℕ)

variable (D : A.Driver)

/-- The configuration after thread `i` makes the exchange its program asks, with the outcome given. -/
def Sys.exchange (c : A.Config) (i : ℕ)
    (outcome : (op : S.Op) → { o : Except S.Err (S.Ans op) × Bool // ∀ a, o.1 = .ok a → o.2 = true }) :
    Option (A.Label × A.Config) :=
  match c.threads i with
  | some (tag, .call op k) =>
    let ev : Event S := ⟨op, (outcome op).1.1, (outcome op).1.2, (outcome op).2⟩
    if D.check c.world i tag ev then
      some (.act i tag ev, ⟨A.apply c.world i tag ev, Function.update c.threads i (some (tag, k (outcome op).1.1))⟩)
    else none
  | _ => none

/-- The configuration a move leads to, with the label of its step; `none` where it is not possible. -/
def Sys.move (c : A.Config) : A.Move → Option (A.Label × A.Config)
  | .start i starter =>
    match c.threads i, starter.start c.world with
    | none, some (tag, p, w) => some (.start i tag, ⟨w, Function.update c.threads i (some (tag, p))⟩)
    | _, _ => none
  | .go i => Sys.exchange D c i fun op => ⟨(D.reply c.world op, true), fun _ _ => rfl⟩
  | .fail i e took => Sys.exchange D c i fun _ => ⟨(.error e, took), fun _ h => by cases h⟩
  | .exit i => some (.exit i, ⟨c.world, Function.update c.threads i none⟩)

/-- The run of a schedule, as far as its moves are possible. -/
def Sys.drive : A.Config → List A.Move → List (A.Label × A.Config)
  | _, [] => []
  | c, m :: ms =>
    match Sys.move D c m with
    | some (l, c') => (l, c') :: Sys.drive c' ms
    | none => []

theorem step_of_exchange {c c' : A.Config} {l : A.Label} {i : ℕ}
    {outcome : (op : S.Op) → { o : Except S.Err (S.Ans op) × Bool // ∀ a, o.1 = .ok a → o.2 = true }}
    (h : Sys.exchange D c i outcome = some (l, c')) : A.Step c l c' := by
  unfold Sys.exchange at h
  split at h
  · rename_i tag op k hrun
    dsimp only at h
    split_ifs at h with hcheck
    cases h
    exact .act hrun (D.sound hcheck)
  · cases h

theorem step_of_move {c c' : A.Config} {l : A.Label} {m : A.Move} (h : Sys.move D c m = some (l, c')) :
    A.Step c l c' := by
  rcases m with ⟨i, starter⟩ | i | ⟨i, e, took⟩ | i
  · simp only [Sys.move] at h
    split at h
    · rename_i tag p w hfree hstart
      cases h
      exact .start hfree (starter.sound hstart)
    · cases h
  · exact step_of_exchange D h
  · exact step_of_exchange D h
  · cases h
    exact .exit

/-- What a driver runs is a run of the system. -/
theorem steps_drive : ∀ (ms : List A.Move) (c : A.Config), A.Steps c (Sys.drive D c ms)
  | [], _ => trivial
  | m :: ms, c => by
    unfold Sys.drive
    split
    · rename_i l c' hm
      exact ⟨step_of_move D hm, steps_drive ms c'⟩
    · trivial

end Drive

end Transform.Lib
