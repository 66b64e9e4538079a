import Transform.Lib.Proc

/-!
# Lib.Stm — statements over local variables

A function body that assigns its local variables and calls its environment.  The locals survive an exception, so
a handler sees them as the raising statement left them.  `wps` is the weakest precondition of a statement: its
postconditions see the locals beside the ghost state.
-/

namespace Transform.Lib

variable {S : Sig} {σ ε ε' α β G : Type}

/-- Statements over locals `σ` that end by returning an `α` or by raising an `ε`. -/
def Stm (S : Sig) (σ ε α : Type) : Type := σ → Proc S (Except ε α × σ)

namespace Stm

/-- The program of a statement started with the locals `s`. -/
def run (p : Stm S σ ε α) (s : σ) : Proc S (Except ε α × σ) := p s

def bind (p : Stm S σ ε α) (f : α → Stm S σ ε β) : Stm S σ ε β := fun s =>
  (p.run s).bind fun
    | (.ok a, s') => (f a).run s'
    | (.error e, s') => .ret (.error e, s')

instance : Monad (Stm S σ ε) where
  pure a := fun s => .ret (.ok a, s)
  bind := .bind

/-- Raise `e`. -/
def throw (e : ε) : Stm S σ ε α := fun s => .ret (.error e, s)

/-- Handle an exception of `p` with `h`, started in the locals `p` left. -/
def tryCatch (p : Stm S σ ε α) (h : ε → Stm S σ ε' α) : Stm S σ ε' α := fun s =>
  (p.run s).bind fun
    | (.ok a, s') => .ret (.ok a, s')
    | (.error e, s') => (h e).run s'

/-- The locals. -/
def get : Stm S σ ε σ := fun s => .ret (.ok s, s)

/-- Assign the locals. -/
def modify (f : σ → σ) : Stm S σ ε Unit := fun s => .ret (.ok (), f s)

/-- Assign the locals, or raise and leave them. -/
def tryModify (f : σ → Except ε σ) : Stm S σ ε Unit := fun s =>
  match f s with
  | .ok s' => .ret (.ok (), s')
  | .error e => .ret (.error e, s)

/-- A call that does not touch the locals. -/
def act (p : Act S ε α) : Stm S σ ε α := fun s => p.run.bind fun r => .ret (r, s)

/-- The program of a whole body; its locals end with it. -/
def exec (p : Stm S σ ε α) (s : σ) : Act S ε α := (p.run s).bind fun r => .ret r.1

end Stm

/-! ## Weakest preconditions -/

section WP

/-- The weakest precondition of `p` for a postcondition of a return and one of an exception. -/
def wps (M : Monitor S G) (p : Stm S σ ε α) (Q : α → σ → G → Prop) (E : ε → σ → G → Prop) (s : σ) : G → Prop :=
  wp M (p.run s) fun
    | (.ok a, s') => Q a s'
    | (.error e, s') => E e s'

variable {M : Monitor S G} {Q : α → σ → G → Prop} {E : ε → σ → G → Prop} {s : σ} {g : G}

theorem wps_mono {Q' : α → σ → G → Prop} {E' : ε → σ → G → Prop} {p : Stm S σ ε α} (h : wps M p Q E s g)
    (hQ : ∀ a s g, Q a s g → Q' a s g) (hE : ∀ e s g, E e s g → E' e s g) : wps M p Q' E' s g := by
  refine wp_mono (fun r g hr => ?_) h
  obtain ⟨a | e, s'⟩ := r
  · exact hE _ s' g hr
  · exact hQ _ s' g hr

@[simp] theorem wps_pure {a : α} : wps M (pure a) Q E s g ↔ Q a s g := Iff.rfl

@[simp] theorem wps_get {Q : σ → σ → G → Prop} : wps M .get Q E s g ↔ Q s s g := Iff.rfl

@[simp] theorem wps_modify {Q : Unit → σ → G → Prop} {f : σ → σ} :
    wps M (.modify f) Q E s g ↔ Q () (f s) g := Iff.rfl

theorem wps_tryModify {Q : Unit → σ → G → Prop} {f : σ → Except ε σ} :
    wps M (.tryModify f) Q E s g ↔ (∀ s', f s = .ok s' → Q () s' g) ∧ ∀ e, f s = .error e → E e s g := by
  unfold wps Stm.run Stm.tryModify
  rcases f s with e | s' <;> simp

@[simp] theorem wps_bind {p : Stm S σ ε α} {f : α → Stm S σ ε β} {Q : β → σ → G → Prop} :
    wps M (p >>= f) Q E s g ↔ wps M p (fun a => wps M (f a) Q E) E s g := by
  show wp M (Proc.bind (p.run s) _) _ g ↔ _
  rw [wp_bind]
  refine ⟨fun h => wp_mono (fun r g hr => ?_) h, fun h => wp_mono (fun r g hr => ?_) h⟩ <;>
    rcases r with ⟨_ | _, _⟩ <;> exact hr

@[simp] theorem wps_tryCatch {p : Stm S σ ε α} {h : ε → Stm S σ ε' α} {E : ε' → σ → G → Prop} :
    wps M (p.tryCatch h) Q E s g ↔ wps M p Q (fun e => wps M (h e) Q E) s g := by
  show wp M (Proc.bind (p.run s) _) _ g ↔ _
  rw [wp_bind]
  refine ⟨fun h => wp_mono (fun r g hr => ?_) h, fun h => wp_mono (fun r g hr => ?_) h⟩ <;>
    rcases r with ⟨_ | _, _⟩ <;> exact hr

theorem wps_act {p : Act S ε α} :
    wps M (.act p) Q E s g ↔ wpe M p (fun a => Q a s) (fun e => E e s) g := by
  show wp M (Proc.bind p.run _) _ g ↔ _
  rw [wp_bind]
  refine ⟨fun h => wp_mono (fun r g hr => ?_) h, fun h => wp_mono (fun r g hr => ?_) h⟩ <;>
    cases r <;> exact hr

theorem wpe_exec {p : Stm S σ ε α} {Q : α → G → Prop} {E : ε → G → Prop} :
    wpe M (p.exec s) Q E g ↔ wps M p (fun a _ => Q a) (fun e _ => E e) s g := by
  show wp M (Proc.bind (p.run s) _) _ g ↔ _
  rw [wp_bind]
  refine ⟨fun h => wp_mono (fun r g hr => ?_) h, fun h => wp_mono (fun r g hr => ?_) h⟩ <;>
    rcases r with ⟨_ | _, _⟩ <;> exact hr

end WP

end Transform.Lib
