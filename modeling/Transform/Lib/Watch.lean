import Transform.Lib.Interleave

/-!
# Lib.Watch — threads under a monitor

In a system whose threads each run under a monitor, what a thread may ask follows from what the monitor has recorded of
it.  `Sys.Watched` collects what is to be shown of one start and of one exchange for an invariant of the world and a
relation `V` between the world and each thread's record; `preserved_of_watched` makes of it the invariant of every run,
and `watched_call` gives back, of a thread about to make a call, its record and that the call is permitted.
-/

namespace Transform.Lib

section Watch

variable {S : Sig} {G : Type} {A : Sys S}

/-- A thread has a record that the world bears out, under which its program asks only what it may. -/
def Sys.Thread (M : A.Tag → Monitor S G) (V : A.World → ℕ → A.Tag → G → Prop) (w : A.World) (i : ℕ) (tag : A.Tag)
    (p : Proc S Unit) : Prop :=
  ∃ g : G, V w i tag g ∧ wp (M tag) p (fun _ _ => True) g

/-- What one start, with the record `g₀`, and one exchange keep. -/
structure Sys.Watched (A : Sys S) (M : A.Tag → Monitor S G) (g₀ : G) (I : A.World → Prop)
    (V : A.World → ℕ → A.Tag → G → Prop) (φ : A.Config → ℕ → A.Tag → Event S → Prop) : Prop where
  start : ∀ {w w' i tag p}, I w → A.spawn w i tag p w' →
    I w' ∧ (V w' i tag g₀ ∧ wp (M tag) p (fun _ _ => True) g₀) ∧
      ∀ j tag' g, j ≠ i → V w j tag' g → V w' j tag' g
  act : ∀ {c i tag ev g}, I c.world → V c.world i tag g → (M tag).pre g ev.op → A.Allowed c.world i tag ev →
    φ c i tag ev →
      I (A.apply c.world i tag ev) ∧ (M tag).rely g ev ∧ V (A.apply c.world i tag ev) i tag ((M tag).step g ev)
  other : ∀ {c i tag ev g}, I c.world → V c.world i tag g → (M tag).pre g ev.op → A.Allowed c.world i tag ev →
    φ c i tag ev → ∀ j tag' g' q, j ≠ i → c.threads j = some (tag', q) → V c.world j tag' g' →
      V (A.apply c.world i tag ev) j tag' g'

/-- What one start and one exchange keep of a further invariant, where a first one holds. -/
structure Sys.Kept (A : Sys S) (M : A.Tag → Monitor S G) (g₀ : G) (I : A.World → Prop)
    (V : A.World → ℕ → A.Tag → G → Prop) (I' : A.World → Prop) (V' : A.World → ℕ → A.Tag → G → Prop)
    (φ : A.Config → ℕ → A.Tag → Event S → Prop) : Prop where
  start : ∀ {w w' i tag p}, I w → I' w → A.spawn w i tag p w' →
    I' w' ∧ V' w' i tag g₀ ∧ ∀ j tag' g, j ≠ i → V' w j tag' g → V' w' j tag' g
  act : ∀ {c i tag ev g}, I c.world → V c.world i tag g → I' c.world → V' c.world i tag g → (M tag).pre g ev.op →
    A.Allowed c.world i tag ev → φ c i tag ev →
      I' (A.apply c.world i tag ev) ∧ V' (A.apply c.world i tag ev) i tag ((M tag).step g ev)
  other : ∀ {c i tag ev g}, I c.world → V c.world i tag g → I' c.world → V' c.world i tag g → (M tag).pre g ev.op →
    A.Allowed c.world i tag ev → φ c i tag ev → ∀ j tag' g' q, j ≠ i → c.threads j = some (tag', q) →
      V c.world j tag' g' → V' c.world j tag' g' → V' (A.apply c.world i tag ev) j tag' g'

variable {M : A.Tag → Monitor S G} {g₀ : G} {I I' : A.World → Prop} {V V' : A.World → ℕ → A.Tag → G → Prop}
  {φ : A.Config → ℕ → A.Tag → Event S → Prop}

/-- Two invariants together. -/
theorem watched_of_kept (h : A.Watched M g₀ I V fun _ _ _ _ => True) (h' : A.Kept M g₀ I V I' V' φ) :
    A.Watched M g₀ (fun w => I w ∧ I' w) (fun w i tag g => V w i tag g ∧ V' w i tag g) φ where
  start := by
    rintro w w' i tag p ⟨hI, hI'⟩ hs
    obtain ⟨hw, ⟨hv, hwp⟩, hother⟩ := h.start hI hs
    obtain ⟨hw', hv', hother'⟩ := h'.start hI hI' hs
    exact ⟨⟨hw, hw'⟩, ⟨⟨hv, hv'⟩, hwp⟩, fun j tag' g hji hj => ⟨hother j tag' g hji hj.1, hother' j tag' g hji hj.2⟩⟩
  act := by
    rintro c i tag ev g ⟨hI, hI'⟩ ⟨hv, hv'⟩ hpre hall hφ
    obtain ⟨hw, hrely, hself⟩ := h.act hI hv hpre hall trivial
    obtain ⟨hw', hself'⟩ := h'.act hI hv hI' hv' hpre hall hφ
    exact ⟨⟨hw, hw'⟩, hrely, hself, hself'⟩
  other := by
    rintro c i tag ev g ⟨hI, hI'⟩ ⟨hv, hv'⟩ hpre hall hφ j tag' g' q hji hj ⟨hvj, hvj'⟩
    exact ⟨h.other hI hv hpre hall trivial j tag' g' q hji hj hvj,
      h'.other hI hv hI' hv' hpre hall hφ j tag' g' q hji hj hvj hvj'⟩

theorem preserved_of_watched (h : A.Watched M g₀ I V φ) : A.Preserved I (Sys.Thread M V) φ where
  start_world hI hs := (h.start hI hs).1
  start_thread hI hs := ⟨g₀, (h.start hI hs).2.1⟩
  start_other := by
    rintro w w' i tag p hI hs j tag' q hji ⟨g, hv, hwp⟩
    exact ⟨g, (h.start hI hs).2.2 j tag' g hji hv, hwp⟩
  act_world := by
    rintro c i tag op k out took hk hI ⟨g, hv, hwp⟩ hall hφ
    have hpre : (M tag).pre g op := hwp.1
    exact (h.act hI hv hpre hall hφ).1
  act_thread := by
    rintro c i tag op k out took hk hI ⟨g, hv, hwp⟩ hall hφ
    have hpre : (M tag).pre g op := hwp.1
    obtain ⟨-, hrely, hself⟩ := h.act hI hv hpre hall hφ
    exact ⟨_, hself, hwp.2 out took hk hrely⟩
  act_other := by
    rintro c i tag op k out took hk hI ⟨g, hv, hwp⟩ hall hφ j tag' q hji hj ⟨g', hv', hwp'⟩
    have hpre : (M tag).pre g op := hwp.1
    exact ⟨g', h.other hI hv hpre hall hφ j tag' g' q hji hj hv', hwp'⟩

theorem watched_call {c : A.Config} {i : ℕ} {tag : A.Tag} {op : S.Op} {k : Except S.Err (S.Ans op) → Proc S Unit}
    (hI : A.Inv I (Sys.Thread M V) c) (hrun : c.threads i = some (tag, .call op k)) :
    ∃ g, V c.world i tag g ∧ (M tag).pre g op := by
  obtain ⟨g, hv, hwp⟩ := hI.2 i tag _ hrun
  exact ⟨g, hv, hwp.1⟩

/-- Nothing runs: there is nothing to show of threads. -/
theorem watched_start {c : A.Config} (hfree : ∀ i, c.threads i = none) (hI : I c.world) :
    A.Inv I (Sys.Thread M V) c := by
  refine ⟨hI, fun i tag p h => ?_⟩
  rw [hfree i] at h
  cases h

theorem actOnly_of_forall (hφ : ∀ c i tag ev, φ c i tag ev) (c c' : A.Config) : ∀ l : A.Label, ActOnly φ c l c'
  | .act _ _ _ => hφ _ _ _ _
  | .start _ _ | .exit _ => trivial

variable (h : A.Watched M g₀ I V fun _ _ _ _ => True)

include h in
/-- The step lemma of an invariant that needs no condition. -/
theorem watched_step {c c' : A.Config} {l : A.Label} (hI : A.Inv I (Sys.Thread M V) c) (hs : A.Step c l c') :
    A.Inv I (Sys.Thread M V) c' :=
  inv_step (preserved_of_watched h) hI hs (actOnly_of_forall (fun _ _ _ _ => trivial) c c' l)

include h in
/-- The run lemma: it holds at the end of every run. -/
theorem watched_last : ∀ {tr : List (A.Label × A.Config)} {c : A.Config}, A.Inv I (Sys.Thread M V) c → A.Steps c tr →
    A.Inv I (Sys.Thread M V) (lastConfig c tr)
  | [], _, hI, _ => hI
  | (_, _) :: tr, _, hI, hs => by
    have ih := watched_last (watched_step h hI hs.1) hs.2
    exact ih

end Watch

/-! ## Which threads there are -/

section Threads

variable {S : Sig} {A : Sys S}

/-- The thread that a step is of. -/
def Sys.Label.thread : A.Label → ℕ
  | .start i _ | .act i _ _ | .exit i => i

theorem threads_of_step {c c' : A.Config} {l : A.Label} {j : ℕ} (h : A.Step c l c') (hj : j ≠ l.thread) :
    c'.threads j = c.threads j := by
  cases h with
  | start _ _ => exact Function.update_of_ne hj _ _
  | act _ _ => exact Function.update_of_ne hj _ _
  | exit => exact Function.update_of_ne hj _ _

/-- In a run of the threads below `n` no other ever runs. -/
theorem along_threads_below {n : ℕ} : ∀ {tr : List (A.Label × A.Config)} {c : A.Config},
    (∀ j, n ≤ j → c.threads j = none) → A.Steps c tr → Along (fun _ l _ => Sys.Label.thread l < n) c tr →
      Along (fun c _ _ => ∀ j, n ≤ j → c.threads j = none) c tr := by
  intro tr c hc hs hbelow
  refine along_of_step (fun c l c' hI hst hl => ⟨fun j hj => ?_, hI⟩) hc hs hbelow
  rw [threads_of_step hst (by omega)]
  exact hI j hj

end Threads

end Transform.Lib
