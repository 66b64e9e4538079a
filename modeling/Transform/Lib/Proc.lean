import Mathlib.Logic.Basic
import Mathlib.Data.List.Basic

/-!
# Lib.Proc — programs that call an environment

A program over a signature `S` returns, or asks an operation of its environment and goes on with the
outcome: an answer, or an exception.  An `Event` records one such exchange.  Its `took` flag says whether the
operation had its effect on the other side; an operation that answered took effect, one that raised may have
(a commit whose acknowledgement is lost).

* `Act`: programs that may themselves raise; `ask`, `throw`, `tryCatch`.
* `Monitor` and `wp`: a weakest precondition along every outcome of every operation.  The monitor keeps a ghost
  state, demands `pre` of each operation asked and may `rely` on what the environment answers.  `wpe` is its form
  for `Act`, with an exceptional postcondition.
* `Run p tr r`: `p` ends in `r` after the exchanges `tr`; `wp_run` carries a `wp` to every run.
* `play`: the run of a program against an environment that is a function.
-/

namespace Transform.Lib

/-- The operations a program may ask, the type of each answer, and what a failing operation raises. -/
structure Sig where
  Op : Type
  Ans : Op → Type
  Err : Type

/-- A program over `S`. -/
inductive Proc (S : Sig) (α : Type) : Type
  | ret (a : α)
  | call (op : S.Op) (k : Except S.Err (S.Ans op) → Proc S α)

/-- One exchange with the environment. -/
structure Event (S : Sig) where
  op : S.Op
  out : Except S.Err (S.Ans op)
  took : Bool
  took_of_ok : ∀ a, out = .ok a → took = true

/-- The event of an operation that took effect, whatever it answered. -/
def Event.done {S : Sig} (op : S.Op) (out : Except S.Err (S.Ans op)) : Event S :=
  ⟨op, out, true, fun _ _ => rfl⟩

/-- The event of an operation that raised without taking effect. -/
def Event.lost {S : Sig} (op : S.Op) (e : S.Err) : Event S :=
  ⟨op, .error e, false, fun _ h => by cases h⟩

variable {S : Sig} {α β ε ε' G W : Type}

/-! ## Sequencing -/

section Sequencing

/-- Run `p`, then go on with `f` on its result. -/
def Proc.bind : Proc S α → (α → Proc S β) → Proc S β
  | .ret a, f => f a
  | .call op k, f => .call op fun out => (k out).bind f

instance : Monad (Proc S) where
  pure := .ret
  bind := .bind

/-- Programs that end by returning an `α` or by raising an `ε`. -/
def Act (S : Sig) (ε α : Type) : Type := Proc S (Except ε α)

/-- The program under an `Act`, its exception made a result. -/
def Act.run (p : Act S ε α) : Proc S (Except ε α) := p

/-- Raise `e`. -/
def Act.throw (e : ε) : Act S ε α := Proc.ret (.error e)

/-- Go on with `f` after a return; an exception skips it. -/
def Act.bind (p : Act S ε α) (f : α → Act S ε β) : Act S ε β :=
  Proc.bind p.run fun
    | .ok a => f a
    | .error e => Act.throw e

instance : Monad (Act S ε) where
  pure a := Proc.ret (.ok a)
  bind := .bind

/-- Handle an exception of `p` with `h`. -/
def Act.tryCatch (p : Act S ε α) (h : ε → Act S ε' α) : Act S ε' α :=
  Proc.bind p.run fun
    | .ok a => Proc.ret (.ok a)
    | .error e => h e

/-- `p` with its exceptions mapped through `f`. -/
def Act.mapError (f : ε → ε') (p : Act S ε α) : Act S ε' α := p.tryCatch fun e => .throw (f e)

/-- Ask `op`; its exception becomes the program's. -/
def ask (op : S.Op) : Act S S.Err (S.Ans op) := Proc.call op .ret

/-- A pure step that may raise. -/
def Act.ofExcept : Except ε α → Act S ε α := Proc.ret

end Sequencing

/-! ## Weakest preconditions -/

section WP

/-- What is demanded and relied on along a run: a ghost state `G`, the operations that may be asked in it, the
outcomes to expect, and how an exchange moves it. -/
structure Monitor (S : Sig) (G : Type) where
  pre : G → S.Op → Prop
  rely : G → Event S → Prop
  step : G → Event S → G

/-- The monitor that only observes. -/
def Monitor.observe (step : G → Event S → G) : Monitor S G :=
  ⟨fun _ _ => True, fun _ _ => True, step⟩

/-- Along every outcome the environment may give, `p` asks only what `M` allows and ends in `Q`. -/
def wp (M : Monitor S G) : Proc S α → (α → G → Prop) → G → Prop
  | .ret a, Q, g => Q a g
  | .call op k, Q, g => M.pre g op ∧ ∀ out took h, M.rely g ⟨op, out, took, h⟩ →
      wp M (k out) Q (M.step g ⟨op, out, took, h⟩)

/-- `wp` with a postcondition for a return and one for an exception. -/
def wpe (M : Monitor S G) (p : Act S ε α) (Q : α → G → Prop) (E : ε → G → Prop) : G → Prop :=
  wp M p.run fun
    | .ok a => Q a
    | .error e => E e

variable {M : Monitor S G}

@[simp] theorem wp_ret {a : α} {Q : α → G → Prop} {g : G} : wp M (.ret a) Q g ↔ Q a g := Iff.rfl

theorem wp_call {op : S.Op} {k : Except S.Err (S.Ans op) → Proc S α} {Q : α → G → Prop} {g : G} :
    wp M (.call op k) Q g ↔ M.pre g op ∧ ∀ out took h, M.rely g ⟨op, out, took, h⟩ →
      wp M (k out) Q (M.step g ⟨op, out, took, h⟩) := Iff.rfl

theorem wp_mono {Q Q' : α → G → Prop} (hQ : ∀ a g, Q a g → Q' a g) :
    ∀ {p : Proc S α} {g : G}, wp M p Q g → wp M p Q' g
  | .ret a, g, h => hQ a g h
  | .call _ _, _, h => ⟨h.1, fun out took hk hr => wp_mono hQ (h.2 out took hk hr)⟩

theorem wp_bind {f : α → Proc S β} {Q : β → G → Prop} :
    ∀ {p : Proc S α} {g : G}, wp M (p.bind f) Q g ↔ wp M p (fun a g => wp M (f a) Q g) g
  | .ret _, _ => Iff.rfl
  | .call _ _, _ => by
    simp only [Proc.bind, wp_call]
    exact and_congr_right fun _ => forall_congr' fun out => forall_congr' fun took =>
      forall_congr' fun hk => imp_congr_right fun _ => wp_bind

theorem wpe_mono {Q Q' : α → G → Prop} {E E' : ε → G → Prop} {p : Act S ε α} {g : G}
    (h : wpe M p Q E g) (hQ : ∀ a g, Q a g → Q' a g) (hE : ∀ e g, E e g → E' e g) :
    wpe M p Q' E' g :=
  wp_mono (fun r g => by cases r with
    | ok a => exact hQ a g
    | error e => exact hE e g) h

@[simp] theorem wpe_pure {a : α} {Q : α → G → Prop} {E : ε → G → Prop} {g : G} :
    wpe M (pure a) Q E g ↔ Q a g := Iff.rfl

@[simp] theorem wpe_bind {p : Act S ε α} {f : α → Act S ε β} {Q : β → G → Prop} {E : ε → G → Prop} {g : G} :
    wpe M (p >>= f) Q E g ↔ wpe M p (fun a g => wpe M (f a) Q E g) E g := by
  show wp M (Proc.bind p.run _) _ g ↔ _
  rw [wp_bind]
  refine ⟨fun h => wp_mono (fun r g hr => ?_) h, fun h => wp_mono (fun r g hr => ?_) h⟩ <;>
    cases r <;> exact hr

@[simp] theorem wpe_tryCatch {p : Act S ε α} {h : ε → Act S ε' α} {Q : α → G → Prop} {E : ε' → G → Prop}
    {g : G} : wpe M (p.tryCatch h) Q E g ↔ wpe M p Q (fun e g => wpe M (h e) Q E g) g := by
  show wp M (Proc.bind p.run _) _ g ↔ _
  rw [wp_bind]
  refine ⟨fun h => wp_mono (fun r g hr => ?_) h, fun h => wp_mono (fun r g hr => ?_) h⟩ <;>
    cases r <;> exact hr

@[simp] theorem wpe_mapError {f : ε → ε'} {p : Act S ε α} {Q : α → G → Prop} {E : ε' → G → Prop} {g : G} :
    wpe M (p.mapError f) Q E g ↔ wpe M p Q (fun e => E (f e)) g := wpe_tryCatch

@[simp] theorem wpe_ofExcept_ok {a : α} {Q : α → G → Prop} {E : ε → G → Prop} {g : G} :
    wpe M (.ofExcept (.ok a)) Q E g ↔ Q a g := Iff.rfl

@[simp] theorem wpe_ofExcept_error {e : ε} {Q : α → G → Prop} {E : ε → G → Prop} {g : G} :
    wpe M (.ofExcept (.error e)) Q E g ↔ E e g := Iff.rfl

theorem wpe_ofExcept {x : Except ε α} {Q : α → G → Prop} {E : ε → G → Prop} {g : G}
    (hQ : ∀ a, x = .ok a → Q a g) (hE : ∀ e, x = .error e → E e g) : wpe M (.ofExcept x) Q E g := by
  rcases x with e | a
  · exact hE e rfl
  · exact hQ a rfl

theorem wpe_ask {op : S.Op} {Q : S.Ans op → G → Prop} {E : S.Err → G → Prop} {g : G} :
    wpe M (ask op) Q E g ↔ M.pre g op ∧
      (∀ a, M.rely g (.done op (.ok a)) → Q a (M.step g (.done op (.ok a)))) ∧
      ∀ e took h, M.rely g ⟨op, .error e, took, h⟩ → E e (M.step g ⟨op, .error e, took, h⟩) := by
  refine and_congr_right fun _ => ⟨fun h => ⟨fun a hr => h (.ok a) true _ hr, fun e took hk hr =>
    h (.error e) took hk hr⟩, fun h out took hk hr => ?_⟩
  cases out with
  | ok a =>
    obtain rfl : took = true := hk a rfl
    exact h.1 a hr
  | error e => exact h.2 e took hk hr

/-- What holds of every operation a program can ask. -/
def Proc.AllOps (φ : S.Op → Prop) : Proc S α → Prop
  | .ret _ => True
  | .call op k => φ op ∧ ∀ out, (k out).AllOps φ

/-- Every operation an `Act` can ask meets `φ`. -/
def Act.Only (φ : S.Op → Prop) (p : Act S ε α) : Prop := p.run.AllOps φ

theorem allOps_bind {φ : S.Op → Prop} {f : α → Proc S β} (hf : ∀ a, (f a).AllOps φ) :
    ∀ {p : Proc S α}, p.AllOps φ → (p.bind f).AllOps φ
  | .ret a, _ => hf a
  | .call _ _, h => ⟨h.1, fun out => allOps_bind hf (h.2 out)⟩

theorem only_pure {φ : S.Op → Prop} {a : α} : (pure a : Act S ε α).Only φ := trivial

theorem only_throw {φ : S.Op → Prop} {e : ε} : (Act.throw e : Act S ε α).Only φ := trivial

theorem only_ofExcept {φ : S.Op → Prop} {x : Except ε α} : (Act.ofExcept x : Act S ε α).Only φ := trivial

theorem only_ask {φ : S.Op → Prop} {op : S.Op} (h : φ op) : (ask op).Only φ := ⟨h, fun _ => trivial⟩

theorem only_bind {φ : S.Op → Prop} {p : Act S ε α} {f : α → Act S ε β} (hp : p.Only φ)
    (hf : ∀ a, (f a).Only φ) : (p >>= f).Only φ :=
  allOps_bind (fun r => by
    rcases r with e | a
    · trivial
    · exact hf a) hp

theorem only_tryCatch {φ : S.Op → Prop} {p : Act S ε α} {h : ε → Act S ε' α} (hp : p.Only φ)
    (hh : ∀ e, (h e).Only φ) : (p.tryCatch h).Only φ :=
  allOps_bind (fun r => by
    rcases r with e | a
    · exact hh e
    · trivial) hp

theorem allOps_mono {φ ψ : S.Op → Prop} (h : ∀ op, φ op → ψ op) : ∀ {p : Proc S α}, p.AllOps φ → p.AllOps ψ
  | .ret _, _ => trivial
  | .call _ _, hp => ⟨h _ hp.1, fun out => allOps_mono h (hp.2 out)⟩

theorem only_mono {φ ψ : S.Op → Prop} {p : Act S ε α} (h : ∀ op, φ op → ψ op) (hp : p.Only φ) : p.Only ψ :=
  allOps_mono h hp

/-- What every operation of a kind keeps, a program that asks only these keeps. -/
theorem wp_of_allOps_inv {φ : S.Op → Prop} {R : G → Prop} {Q : α → G → Prop}
    (hpre : ∀ g op, R g → φ op → M.pre g op) (hstep : ∀ g ev, R g → φ ev.op → M.rely g ev → R (M.step g ev))
    (hQ : ∀ a g, R g → Q a g) : ∀ {p : Proc S α} {g : G}, p.AllOps φ → R g → wp M p Q g
  | .ret a, g, _, hg => hQ a g hg
  | .call op _, g, h, hg => ⟨hpre g op hg h.1, fun out _ _ hr =>
      wp_of_allOps_inv hpre hstep hQ (h.2 out) (hstep g _ hg h.1 hr)⟩

/-- What every exchange keeps, a program keeps. -/
theorem wp_of_inv {R : G → Prop} {Q : α → G → Prop} (hpre : ∀ g op, R g → M.pre g op)
    (hstep : ∀ g ev, R g → M.rely g ev → R (M.step g ev)) (hQ : ∀ a g, R g → Q a g) :
    ∀ {p : Proc S α} {g : G}, R g → wp M p Q g
  | .ret a, g, hg => hQ a g hg
  | .call op _, g, hg => ⟨hpre g op hg, fun _ _ _ hr => wp_of_inv hpre hstep hQ (hstep g _ hg hr)⟩

theorem wpe_of_only_inv {φ : S.Op → Prop} {R : G → Prop} {p : Act S ε α} {Q : α → G → Prop} {E : ε → G → Prop} {g : G}
    (hp : p.Only φ) (hpre : ∀ g op, R g → φ op → M.pre g op)
    (hstep : ∀ g ev, R g → φ ev.op → M.rely g ev → R (M.step g ev)) (hQ : ∀ a g, R g → Q a g)
    (hE : ∀ e g, R g → E e g) (hg : R g) : wpe M p Q E g :=
  wp_of_allOps_inv hpre hstep (fun r g hg => by
    rcases r with e | a
    · exact hE e g hg
    · exact hQ a g hg) hp hg

/-- Operations that the monitor allows and that leave its ghost state alone are invisible to a `wpe`. -/
theorem wpe_of_only {φ : S.Op → Prop} {p : Act S ε α} {Q : α → G → Prop} {E : ε → G → Prop} {g : G}
    (hp : p.Only φ) (hpre : ∀ op, φ op → M.pre g op) (hstep : ∀ ev, φ ev.op → M.step g ev = g)
    (hQ : ∀ a, Q a g) (hE : ∀ e, E e g) : wpe M p Q E g := by
  refine wpe_of_only_inv (R := fun g' => g' = g) hp ?_ ?_ ?_ ?_ rfl
  · rintro g' op rfl hop
    exact hpre op hop
  · rintro g' ev rfl hev -
    exact hstep ev hev
  · rintro a g' rfl
    exact hQ a
  · rintro e g' rfl
    exact hE e

/-- A program as a thread: what it returns or raises ends with it. -/
def thread (p : Act S ε α) : Proc S Unit := p.run.bind fun _ => .ret ()

theorem wp_thread {p : Act S ε α} {g : G} (h : wp M p.run (fun _ _ => True) g) :
    wp M (thread p) (fun _ _ => True) g :=
  wp_bind.2 h

/-- What holds of the ghost state after a return and after an exception holds at the end of the thread. -/
theorem wp_thread_of_wpe {p : Act S ε α} {R : G → Prop} {g : G} (h : wpe M p (fun _ => R) (fun _ => R) g) :
    wp M (thread p) (fun _ => R) g :=
  wp_bind.2 (wp_mono (fun r g hr => by
    rcases r with e | a
    · exact hr
    · exact hr) h)

/-- A demand on the operations can be dropped. -/
theorem wp_observe {M : Monitor S G} {Q : α → G → Prop} : ∀ {p : Proc S α} {g : G},
    (∀ g ev, M.rely g ev) → wp M p Q g → wp (.observe M.step) p Q g
  | .ret _, _, _, h => h
  | .call _ _, _, hr, h => ⟨trivial, fun out took hk _ => wp_observe hr (h.2 out took hk (hr _ _))⟩

end WP

/-! ## Operations carried out by programs -/

section Subst

variable {T : Sig}

/-- `p` with each of its operations carried out by a program over another signature. -/
def Proc.subst (h : (op : S.Op) → Proc T (Except S.Err (S.Ans op))) : Proc S α → Proc T α
  | .ret a => .ret a
  | .call op k => (h op).bind fun out => (k out).subst h

/-- The same of a program that may raise. -/
def Act.subst (h : (op : S.Op) → Proc T (Except S.Err (S.Ans op))) (p : Act S ε α) : Act T ε α := p.run.subst h

variable {h : (op : S.Op) → Proc T (Except S.Err (S.Ans op))}

variable {M : Monitor T G}

end Subst

/-! ## Runs -/

section Runs

/-- `p` ends in `r` after the exchanges `tr`. -/
def Run : Proc S α → List (Event S) → α → Prop
  | .ret a, tr, r => tr = [] ∧ r = a
  | .call op k, tr, r => ∃ out took h tr', tr = ⟨op, out, took, h⟩ :: tr' ∧ Run (k out) tr' r

/-- A run asks what the program can ask. -/
theorem run_allOps {φ : S.Op → Prop} : ∀ {p : Proc S α} {tr : List (Event S)} {r : α}, p.AllOps φ → Run p tr r →
    ∀ ev ∈ tr, φ ev.op
  | .ret _, _, _, _, hr, ev, hev => by
    rw [hr.1] at hev
    cases hev
  | .call op k, _, _, hp, hr, ev, hev => by
    obtain ⟨out, took, hk, tr', rfl, hr'⟩ := hr
    rcases List.mem_cons.1 hev with rfl | hev
    · exact hp.1
    · exact run_allOps (hp.2 out) hr' ev hev

/-- Every exchange of `tr` answers as `M` relies on. -/
def Monitor.Relied (M : Monitor S G) : G → List (Event S) → Prop
  | _, [] => True
  | g, ev :: tr => M.rely g ev ∧ M.Relied (M.step g ev) tr

theorem relied_observe (step : G → Event S → G) : ∀ (tr : List (Event S)) (g : G),
    (Monitor.observe step).Relied g tr
  | [], _ => trivial
  | _ :: tr, _ => ⟨trivial, relied_observe step tr _⟩

/-- A `wp` holds of every run the monitor can rely on. -/
theorem wp_run {M : Monitor S G} {Q : α → G → Prop} : ∀ {p : Proc S α} {g : G} {tr : List (Event S)} {r : α},
    wp M p Q g → Run p tr r → M.Relied g tr → Q r (tr.foldl M.step g)
  | .ret _, _, _, _, h, hr, _ => by
    obtain ⟨rfl, rfl⟩ := hr
    exact h
  | .call op k, g, _, _, h, hr, hM => by
    obtain ⟨out, took, hk, tr', rfl, hr'⟩ := hr
    have ih := wp_run (h.2 out took hk hM.1) hr' hM.2
    exact ih

/-- **Adequacy**: what a `wp` that only observes establishes holds of the whole exchange of every run. -/
theorem wp_observe_run {step : G → Event S → G} {Q : α → G → Prop} {p : Proc S α} {g : G}
    {tr : List (Event S)} {r : α} (h : wp (.observe step) p Q g) (hr : Run p tr r) :
    Q r (tr.foldl step g) :=
  wp_run h hr (relied_observe step tr g)

/-- The monitor that keeps the exchanges themselves, relying on something of each. -/
def Monitor.recording (rely : Event S → Prop) : Monitor S (List (Event S)) :=
  ⟨fun _ _ => True, fun _ ev => rely ev, fun tr ev => tr ++ [ev]⟩

theorem wp_recording_run {rely : Event S → Prop} {Q : α → List (Event S) → Prop} {p : Proc S α} {tr : List (Event S)}
    {r : α} (h : wp (.recording rely) p Q []) (hr : Run p tr r) (hrely : ∀ ev ∈ tr, rely ev) : Q r tr := by
  have relied : ∀ (tr : List (Event S)) (g : List (Event S)), (∀ ev ∈ tr, rely ev) →
      (Monitor.recording rely).Relied g tr := by
    intro tr
    induction tr with
    | nil => exact fun _ _ => trivial
    | cons ev tr ih =>
      exact fun g h => ⟨h ev (List.mem_cons_self ..), ih _ fun e he => h e (List.mem_cons_of_mem _ he)⟩
  have recorded : ∀ (tr : List (Event S)) (g : List (Event S)), tr.foldl (Monitor.recording rely).step g = g ++ tr := by
    intro tr
    induction tr with
    | nil => exact fun g => (List.append_nil g).symm
    | cons ev tr ih =>
      intro g
      rw [List.foldl_cons, ih]
      exact List.append_cons g ev tr |>.symm
  have hQ := wp_run h hr (relied tr [] hrely)
  rwa [recorded, List.nil_append] at hQ

end Runs

/-! ## Runs against a given environment -/

section Play

/-- An environment that replies to every operation and changes with it. -/
structure Env (S : Sig) (W : Type) where
  reply : W → (op : S.Op) → Except S.Err (S.Ans op)
  effect : W → Event S → W

/-- The exchange with an environment that answers `out`; what raises takes no effect. -/
def Event.answered (op : S.Op) : Except S.Err (S.Ans op) → Event S
  | .ok a => .done op (.ok a)
  | .error e => .lost op e

/-- The exchanges and the result of `p` against `E`. -/
def Proc.play (E : Env S W) : Proc S α → W → List (Event S) × α
  | .ret a, _ => ([], a)
  | .call op k, w =>
    let out := E.reply w op
    let rest := (k out).play E (E.effect w (.answered op out))
    (.answered op out :: rest.1, rest.2)

theorem run_play (E : Env S W) : ∀ (p : Proc S α) (w : W), Run p (p.play E w).1 (p.play E w).2
  | .ret _, _ => ⟨rfl, rfl⟩
  | .call op k, w => by
    have ih := run_play E (k (E.reply w op)) (E.effect w (.answered op (E.reply w op)))
    rcases h : E.reply w op with e | a
    · rw [h] at ih
      exact ⟨.error e, false, _, _, by simp only [Proc.play, h]; rfl, by simp only [Proc.play, h]; exact ih⟩
    · rw [h] at ih
      exact ⟨.ok a, true, _, _, by simp only [Proc.play, h]; rfl, by simp only [Proc.play, h]; exact ih⟩

/-- Every exchange of a run against an environment is one of its answers. -/
theorem forall_play {E : Env S W} {φ : Event S → Prop} (hreply : ∀ w op, φ (.answered op (E.reply w op))) :
    ∀ (p : Proc S α) (w : W), ∀ ev ∈ (p.play E w).1, φ ev
  | .ret _, _ => List.forall_mem_nil _
  | .call op k, w => List.forall_mem_cons.2 ⟨hreply w op, forall_play hreply (k (E.reply w op)) _⟩

/-- A run against an environment that answers as `M` relies on, and whose state is `M`'s ghost state. -/
theorem relied_play {M : Monitor S W} {E : Env S W} (heffect : E.effect = M.step)
    (hreply : ∀ w op, M.rely w (.answered op (E.reply w op))) :
    ∀ (p : Proc S α) (w : W), M.Relied w (p.play E w).1
  | .ret _, _ => trivial
  | .call op k, w => by
    refine ⟨hreply w op, ?_⟩
    rw [← heffect]
    exact relied_play heffect hreply (k (E.reply w op)) _

/-- The result of `p` against `E`, and the state it leaves. -/
def Proc.exec (E : Env S W) : Proc S α → W → α × W
  | .ret a, w => (a, w)
  | .call op k, w => (k (E.reply w op)).exec E (E.effect w (.answered op (E.reply w op)))

/-- The monitor of an environment: every exchange is the one that `E` makes. -/
def Monitor.of (E : Env S W) : Monitor S W :=
  ⟨fun _ _ => True, fun w ev => ev = .answered ev.op (E.reply w ev.op), E.effect⟩

/-- A `wp` against an environment is a statement about the one run there is. -/
theorem wp_of (E : Env S W) {Q : α → W → Prop} : ∀ {p : Proc S α} {w : W},
    wp (.of E) p Q w ↔ Q (p.exec E w).1 (p.exec E w).2
  | .ret _, _ => Iff.rfl
  | .call op k, w => by
    refine Iff.trans ?_ (wp_of E (p := k (E.reply w op)))
    rw [wp_call]
    constructor
    · rintro ⟨-, h⟩
      rcases hr : E.reply w op with e | a
      · exact h (.error e) false (fun _ he => by cases he) (by simp only [Monitor.of, hr]; rfl)
      · exact h (.ok a) true (fun _ _ => rfl) (by simp only [Monitor.of, hr]; rfl)
    · intro h
      refine ⟨trivial, fun out took hk hrely => ?_⟩
      obtain rfl : out = E.reply w op := by
        have hout : HEq (Event.mk op out took hk).out (Event.answered op (E.reply w op)).out := by rw [← hrely]
        rcases hr : E.reply w op with e | a <;> rw [hr] at hout <;> exact eq_of_heq hout
      rw [show Event.mk op (E.reply w op) took hk = .answered op (E.reply w op) from hrely]
      exact h

/-- What holds of the state after a return and after an exception holds of the state an `Act` leaves. -/
theorem exec_of_wpe {E : Env S W} {p : Act S ε α} {R : W → Prop} {w : W}
    (h : wpe (.of E) p (fun _ => R) (fun _ => R) w) : R (p.run.exec E w).2 := by
  refine (wp_of E (Q := fun _ => R)).1 (wp_mono (fun r w hr => ?_) h)
  rcases r with e | a
  · exact hr
  · exact hr

/-- What holds of every return, where nothing can be raised, holds of the one there is. -/
theorem exec_ok_of_wpe {E : Env S W} {p : Act S ε α} {P : α → Prop} {w : W}
    (h : wpe (.of E) p (fun a _ => P a) (fun _ _ => False) w) : ∃ a, (p.run.exec E w).1 = .ok a ∧ P a := by
  have hexec := (wp_of E).1 h
  rcases hres : (p.run.exec E w).1 with e | a
  · rw [hres] at hexec
    exact hexec.elim
  · rw [hres] at hexec
    exact ⟨a, rfl, hexec⟩

theorem wpe_ask_of (E : Env S W) {op : S.Op} {Q : S.Ans op → W → Prop} {R : S.Err → W → Prop} {w : W} :
    wpe (.of E) (ask op) Q R w ↔ match E.reply w op with
      | .ok a => Q a (E.effect w (.done op (.ok a)))
      | .error e => R e (E.effect w (.lost op e)) := by
  show wp (.of E) (.call op .ret) _ w ↔ _
  rw [wp_of]
  simp only [Proc.exec]
  rcases E.reply w op with e | a <;> exact Iff.rfl

theorem wpe_ask_answered {E : Env S W} {op : S.Op} {Q : S.Ans op → W → Prop} {R : S.Err → W → Prop} {w : W} {a : S.Ans op}
    (h : E.reply w op = .ok a) : wpe (.of E) (ask op) Q R w ↔ Q a (E.effect w (.done op (.ok a))) := by
  rw [wpe_ask_of, h]

theorem wpe_ask_raised {E : Env S W} {op : S.Op} {Q : S.Ans op → W → Prop} {R : S.Err → W → Prop} {w : W} {e : S.Err}
    (h : E.reply w op = .error e) : wpe (.of E) (ask op) Q R w ↔ R e (E.effect w (.lost op e)) := by
  rw [wpe_ask_of, h]

end Play

end Transform.Lib
