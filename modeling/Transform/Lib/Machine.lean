import Mathlib.Init

/-!
# Lib.Machine — runs of a step function

A machine gives the state that an event leads to, or none where the event cannot happen.  A path lists the events of a run
with the states they lead to; `Throughout φ` holds of a path if `φ` holds of each of its steps.
-/

namespace Transform.Lib

variable {σ ε : Type} {step : σ → ε → Option σ}

section Paths

/-- `tr` is a run of the machine from a state. -/
def Path (step : σ → ε → Option σ) : σ → List (ε × σ) → Prop
  | _, [] => True
  | s, (e, s') :: tr => step s e = some s' ∧ Path step s' tr

/-- `φ` holds of every step. -/
def Throughout (φ : σ → ε → σ → Prop) : σ → List (ε × σ) → Prop
  | _, [] => True
  | s, (e, s') :: tr => φ s e s' ∧ Throughout φ s' tr

/-- The state that a path ends in. -/
def lastState : σ → List (ε × σ) → σ
  | s, [] => s
  | _, (_, s') :: tr => lastState s' tr

theorem throughout_mono {φ ψ : σ → ε → σ → Prop} (h : ∀ s e s', φ s e s' → ψ s e s') :
    ∀ {tr : List (ε × σ)} {s : σ}, Throughout φ s tr → Throughout ψ s tr
  | [], _, _ => trivial
  | _ :: _, _, ha => ⟨h _ _ _ ha.1, throughout_mono h ha.2⟩

theorem throughout_of_step {I : σ → Prop} {φ ψ : σ → ε → σ → Prop}
    (h : ∀ s e s', I s → step s e = some s' → φ s e s' → I s' ∧ ψ s e s') :
    ∀ {tr : List (ε × σ)} {s : σ}, I s → Path step s tr → Throughout φ s tr → Throughout ψ s tr
  | [], _, _, _, _ => trivial
  | _ :: _, _, hI, hs, hφ =>
    have hnext := h _ _ _ hI hs.1 hφ.1
    ⟨hnext.2, throughout_of_step h hnext.1 hs.2 hφ.2⟩

theorem throughout_of_inv {I : σ → Prop} {ψ : σ → ε → σ → Prop} (h : ∀ s e s', I s → step s e = some s' → I s' ∧ ψ s e s') :
    ∀ {tr : List (ε × σ)} {s : σ}, I s → Path step s tr → Throughout ψ s tr
  | [], _, _, _ => trivial
  | _ :: _, _, hI, hs =>
    have hnext := h _ _ _ hI hs.1
    ⟨hnext.2, throughout_of_inv h hnext.1 hs.2⟩

/-- Along a path, a property that holds at its start holds of every state exactly if `φ` holds of every step, where a step
from a state with the property keeps it exactly if `φ` holds of the step. -/
theorem throughout_iff {I K : σ → Prop} {φ : σ → ε → σ → Prop} (hI : ∀ s e s', I s → step s e = some s' → I s')
    (hK : ∀ s e s', I s → K s → step s e = some s' → (K s' ↔ φ s e s')) :
    ∀ {tr : List (ε × σ)} {s : σ}, I s → K s → Path step s tr →
      (Throughout (fun _ _ s' => K s') s tr ↔ Throughout φ s tr)
  | [], _, _, _, _ => Iff.rfl
  | (e, s') :: tr, s, hi, hk, hs => by
    have hstep := hK s e s' hi hk hs.1
    have ih : K s' → (Throughout (fun _ _ s' => K s') s' tr ↔ Throughout φ s' tr) := fun hk' =>
      throughout_iff hI hK (hI s e s' hi hs.1) hk' hs.2
    constructor
    · rintro ⟨hk', hrest⟩
      exact ⟨hstep.1 hk', (ih hk').1 hrest⟩
    · rintro ⟨hφ, hrest⟩
      exact ⟨hstep.2 hφ, (ih (hstep.2 hφ)).2 hrest⟩

theorem last_of_throughout {K : σ → Prop} : ∀ {tr : List (ε × σ)} {s : σ}, K s → Throughout (fun _ _ s' => K s') s tr →
    K (lastState s tr)
  | [], _, hk, _ => hk
  | (_, s') :: tr, _, _, h => by
    have ih : K (lastState s' tr) := last_of_throughout h.1 h.2
    exact ih

end Paths

/-! ## Concrete paths -/

section Concrete

/-- The path of some events, as far as they can happen. -/
def trace (step : σ → ε → Option σ) : σ → List ε → List (ε × σ)
  | _, [] => []
  | s, e :: es =>
    match step s e with
    | some s' => (e, s') :: trace step s' es
    | none => []

theorem path_trace : ∀ (es : List ε) (s : σ), Path step s (trace step s es)
  | [], _ => trivial
  | e :: es, s => by
    unfold trace
    split
    · rename_i s' h
      exact ⟨h, path_trace es s'⟩
    · trivial

instance decidableThroughout {φ : σ → ε → σ → Prop} [h : ∀ s e s', Decidable (φ s e s')] :
    ∀ (s : σ) (tr : List (ε × σ)), Decidable (Throughout φ s tr)
  | _, [] => isTrue trivial
  | s, (e, s') :: tr => @instDecidableAnd _ _ (h s e s') (decidableThroughout s' tr)

end Concrete

end Transform.Lib
