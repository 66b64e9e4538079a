import Mathlib.Data.List.Basic
import Transform.Lib.Bytes

/-!
# Lib.Chunked — reading a stream in pieces

A source is read in pieces of `n` until a read comes back empty.  A loop over the pieces numbers them, and yields what
it makes of each, or raises.

* `reads n xs`: the pieces; `IsCut n` tells a list of pieces that such reads give, and `reads_flatten` reads it back.
* `numbered f i xs`: the pieces, each made into another with its number, counted from `i`.
* `chunkLoop`: the loop of a generator; `chunkLoop_eq`: it works through the pieces one by one.
-/

namespace Transform.Lib

variable {α β γ ε : Type}

/-! ## Generators -/

section Generators

/-- What a generator yields, and how it ends. -/
structure Generated (ε β : Type) where
  yielded : List β
  outcome : Except ε Unit
  deriving DecidableEq

/-- It ends without another item. -/
def Generated.done : Generated ε β := ⟨[], .ok ()⟩

def Generated.raise (e : ε) : Generated ε β := ⟨[], .error e⟩

def Generated.cons (b : β) (g : Generated ε β) : Generated ε β := ⟨b :: g.yielded, g.outcome⟩

/-- What a caller that joins the items gets. -/
def Generated.joined (g : Generated ε (List α)) : Except ε (List α) := g.outcome.map fun _ => g.yielded.flatten

theorem joined_ok {g : Generated ε (List α)} {out : List α} (h : g.joined = .ok out) :
    g.outcome = .ok () ∧ g.yielded.flatten = out := by
  obtain ⟨yielded, outcome⟩ := g
  rcases outcome with e | a
  · cases h
  · cases h
    exact ⟨rfl, rfl⟩

end Generators

/-! ## Pieces -/

section Pieces

/-- The reads of `n` items each, up to the first empty one. -/
def reads (n : ℕ) (xs : List α) : List (List α) :=
  if _h : xs.take n = [] then [] else xs.take n :: reads n (xs.drop n)
termination_by xs.length
decreasing_by
  have hpos : 0 < (xs.take n).length := List.length_pos_of_ne_nil _h
  rw [List.length_take] at hpos
  rw [List.length_drop]
  omega

@[simp] theorem reads_nil (n : ℕ) : reads n ([] : List α) = [] := by
  rw [reads]
  simp

theorem reads_cons {n : ℕ} {xs : List α} (h : xs.take n ≠ []) : reads n xs = xs.take n :: reads n (xs.drop n) := by
  rw [reads, dif_neg h]

theorem take_ne_nil {n : ℕ} {xs : List α} (hn : 0 < n) (hxs : xs ≠ []) : xs.take n ≠ [] := by
  cases xs with
  | nil => exact absurd rfl hxs
  | cons x xs =>
    cases n with
    | zero => omega
    | succ n => exact List.cons_ne_nil _ _

/-- Pieces of `n` items each, but for a shorter last one that is not empty. -/
inductive IsCut (n : ℕ) : List (List α) → Prop
  | nil : IsCut n []
  | last {x : List α} (hpos : x ≠ []) (hle : x.length ≤ n) : IsCut n [x]
  | cons {x : List α} {xs : List (List α)} (hx : x.length = n) (hpos : x ≠ []) (hxs : IsCut n xs) : IsCut n (x :: xs)

theorem length_flatten_le {n : ℕ} {xs : List (List α)} (h : IsCut n xs) : xs.flatten.length ≤ n * xs.length := by
  induction h with
  | nil => exact Nat.zero_le _
  | last hpos hle => simpa using hle
  | cons hx _ _ ih =>
    rw [List.flatten_cons, List.length_append, List.length_cons, Nat.mul_succ]
    omega

/-- All pieces but the last are full, and the last is not empty. -/
theorem lt_length_flatten {n : ℕ} {xs : List (List α)} (h : IsCut n xs) (hne : xs ≠ []) :
    n * (xs.length - 1) < xs.flatten.length := by
  induction h with
  | nil => exact absurd rfl hne
  | last hpos hle => simpa using List.length_pos_of_ne_nil hpos
  | @cons x xs hx hpos hxs ih =>
    have hlen := List.length_pos_of_ne_nil hpos
    rw [List.flatten_cons, List.length_append, List.length_cons, Nat.add_sub_cancel]
    by_cases hnil : xs = []
    · subst hnil
      simpa using hlen
    · have ih := ih hnil
      have hxs := List.length_pos_of_ne_nil hnil
      have hmul : n * xs.length = n * (xs.length - 1) + n := by
        rw [← Nat.mul_succ]
        congr 1
        omega
      omega

theorem reads_isCut {n : ℕ} (_hn : 0 < n) (xs : List α) : IsCut n (reads n xs) := by
  induction xs using reads.induct n with
  | case1 xs h =>
    rw [reads, dif_pos h]
    exact .nil
  | case2 xs h ih =>
    rw [reads_cons h]
    by_cases hlen : n ≤ xs.length
    · exact .cons (by rw [List.length_take]; omega) h ih
    · rw [List.drop_eq_nil_of_le (by omega), reads_nil]
      exact .last h (by rw [List.length_take]; omega)

theorem flatten_reads {n : ℕ} (hn : 0 < n) (xs : List α) : (reads n xs).flatten = xs := by
  induction xs using reads.induct n with
  | case1 xs h =>
    have hnil : xs = [] := by
      by_contra hne
      exact take_ne_nil hn hne h
    rw [hnil, reads_nil]
    rfl
  | case2 xs h ih => rw [reads_cons h, List.flatten_cons, ih, List.take_append_drop]

theorem reads_flatten {n : ℕ} {xs : List (List α)} (h : IsCut n xs) : reads n xs.flatten = xs := by
  induction h with
  | nil => exact reads_nil n
  | @last x hpos hle =>
    have htake : x.take n = x := List.take_of_length_le hle
    rw [List.flatten_singleton, reads_cons (by rw [htake]; exact hpos), htake, List.drop_eq_nil_of_le hle, reads_nil]
  | @cons x xs hx hpos hxs ih =>
    have htake : (x ++ xs.flatten).take n = x := by rw [← hx, List.take_left']; rfl
    have hdrop : (x ++ xs.flatten).drop n = xs.flatten := by rw [← hx, List.drop_left']; rfl
    rw [List.flatten_cons, reads_cons (by rw [htake]; exact hpos), htake, hdrop, ih]

theorem isCut_take {n : ℕ} {xs : List (List α)} (h : IsCut n xs) : ∀ m, IsCut n (xs.take m) := by
  induction h with
  | nil =>
    intro m
    rw [List.take_nil]
    exact .nil
  | last hpos hle =>
    intro m
    cases m with
    | zero => exact .nil
    | succ m =>
      rw [List.take_succ_cons, List.take_nil]
      exact .last hpos hle
  | cons hx hpos _ ih =>
    intro m
    cases m with
    | zero => exact .nil
    | succ m => exact .cons hx hpos (ih m)

/-- The leading pieces are the leading items. -/
theorem take_flatten {n : ℕ} {xs : List (List α)} (h : IsCut n xs) : ∀ m, xs.flatten.take (m * n) = (xs.take m).flatten := by
  induction h with
  | nil =>
    intro m
    rw [List.take_nil, List.flatten_nil, List.take_nil]
  | @last x hpos hle =>
    intro m
    cases m with
    | zero => simp
    | succ m =>
      have hlen : x.length ≤ (m + 1) * n := Nat.le_trans hle (Nat.le_mul_of_pos_left n (Nat.succ_pos m))
      rw [List.take_succ_cons, List.take_nil, List.flatten_singleton, List.take_of_length_le hlen]
  | @cons x xs hx hpos hxs ih =>
    intro m
    cases m with
    | zero => simp
    | succ m =>
      rw [List.take_succ_cons, List.flatten_cons, List.flatten_cons, ← ih m, Nat.succ_mul, Nat.add_comm, ← hx,
        List.take_length_add_append]

theorem infix_of_mem_reads {n : ℕ} {x xs : List α} (hx : x ∈ reads n xs) : x <:+: xs := by
  induction xs using reads.induct n with
  | case1 xs h =>
    rw [reads, dif_pos h] at hx
    cases hx
  | case2 xs h ih =>
    rw [reads_cons h] at hx
    rcases List.mem_cons.1 hx with rfl | hx
    · exact (List.take_prefix n xs).isInfix
    · exact (ih hx).trans (List.drop_suffix n xs).isInfix

/-- A list whose entries are those of another, as far as it goes, is its beginning. -/
theorem eq_take_of_getElem? {xs ys : List β} (h : ∀ (k : ℕ) (y : β), ys[k]? = some y → xs[k]? = some y) :
    ys = xs.take ys.length := by
  refine List.ext_getElem? fun k => ?_
  rw [List.getElem?_take]
  split_ifs with hk
  · exact (h k ys[k] (List.getElem?_eq_getElem hk)).symm ▸ List.getElem?_eq_getElem hk
  · exact List.getElem?_eq_none (by omega)

end Pieces

/-! ## Numbered pieces -/

section Numbered

/-- Each piece with its number, counted from `i`, through `f`. -/
def numbered (f : ℕ → β → γ) : ℕ → List β → List γ
  | _, [] => []
  | i, x :: xs => f i x :: numbered f (i + 1) xs

@[simp] theorem length_numbered (f : ℕ → β → γ) : ∀ (i : ℕ) (xs : List β), (numbered f i xs).length = xs.length
  | _, [] => rfl
  | i, _ :: xs => by simp [numbered, length_numbered f (i + 1) xs]

theorem getElem?_numbered (f : ℕ → β → γ) : ∀ (i k : ℕ) (xs : List β),
    (numbered f i xs)[k]? = xs[k]?.map (f (i + k))
  | _, _, [] => by simp [numbered]
  | i, 0, x :: xs => by simp [numbered]
  | i, k + 1, x :: xs => by
    have ih := getElem?_numbered f (i + 1) k xs
    rw [numbered, List.getElem?_cons_succ, ih, List.getElem?_cons_succ, Nat.add_right_comm]
    rfl

theorem take_numbered (f : ℕ → β → γ) : ∀ (i m : ℕ) (xs : List β), (numbered f i xs).take m = numbered f i (xs.take m)
  | _, _, [] => by simp [numbered]
  | _, 0, _ :: _ => rfl
  | i, m + 1, x :: xs => by
    rw [numbered, List.take_succ_cons, take_numbered f (i + 1) m xs]
    rfl

/-- What lengthens each piece by `t` keeps the cut. -/
theorem isCut_numbered {n t : ℕ} {f : ℕ → List α → List α} (hf : ∀ i x, (f i x).length = x.length + t) {xs : List (List α)}
    (h : IsCut n xs) : ∀ i, IsCut (n + t) (numbered f i xs) := by
  have hpos : ∀ {i : ℕ} {x : List α}, x ≠ [] → f i x ≠ [] := by
    intro i x hx
    have hlen := List.length_pos_of_ne_nil hx
    exact List.ne_nil_of_length_pos (by rw [hf]; omega)
  induction h with
  | nil => exact fun _ => .nil
  | last hx hle => exact fun i => .last (hpos hx) (by rw [hf]; omega)
  | cons hx hne _ ih => exact fun i => .cons (by rw [hf, hx]) (hpos hne) (ih (i + 1))

theorem length_flatten_numbered {t : ℕ} {f : ℕ → List α → List α} (hf : ∀ i x, (f i x).length = x.length + t) :
    ∀ (i : ℕ) (xs : List (List α)), (numbered f i xs).flatten.length = xs.flatten.length + t * xs.length
  | _, [] => rfl
  | i, x :: xs => by
    simp only [numbered, List.flatten_cons, List.length_append, hf, length_flatten_numbered hf (i + 1) xs,
      List.length_cons, Nat.mul_succ]
    omega

end Numbered

/-! ## The loop -/

section Loop

/-- The body of a loop on each of some pieces, numbered from `i`. -/
def eachPiece (f : ℕ → β → Except ε γ) : ℕ → List β → Generated ε γ
  | _, [] => .done
  | i, x :: xs => match f i x with
    | .error e => .raise e
    | .ok y => (eachPiece f (i + 1) xs).cons y

/-- `while chunk := read(n)`: what the body makes of each chunk is yielded. -/
def chunkLoop (f : ℕ → List α → Except ε γ) (n : ℕ) (src : List α) (counter : ℕ) : Generated ε γ :=
  if _h : src.take n = [] then .done
  else match f counter (src.take n) with
    | .error e => .raise e
    | .ok y => (chunkLoop f n (src.drop n) (counter + 1)).cons y
termination_by src.length
decreasing_by
  have hpos : 0 < (src.take n).length := List.length_pos_of_ne_nil _h
  rw [List.length_take] at hpos
  rw [List.length_drop]
  omega

theorem chunkLoop_eq (f : ℕ → List α → Except ε γ) (n : ℕ) (src : List α) (counter : ℕ) :
    chunkLoop f n src counter = eachPiece f counter (reads n src) := by
  induction src using reads.induct n generalizing counter with
  | case1 src h => rw [chunkLoop, dif_pos h, reads, dif_pos h, eachPiece]
  | case2 src h ih =>
    rw [chunkLoop, dif_neg h, reads_cons h, eachPiece]
    rcases f counter (src.take n) with e | y
    · rfl
    · dsimp only
      rw [ih]

variable {f : ℕ → β → Except ε γ}

/-- A body that never raises yields its result on each piece. -/
theorem eachPiece_ok {g : ℕ → β → γ} : ∀ {i : ℕ} {xs : List β},
    (∀ j x, i ≤ j → j < i + xs.length → x ∈ xs → f j x = .ok (g j x)) → eachPiece f i xs = ⟨numbered g i xs, .ok ()⟩
  | _, [], _ => rfl
  | i, x :: xs, h => by
    have hx := h i x (Nat.le_refl i) (by simp) List.mem_cons_self
    have ih := eachPiece_ok (g := g) (i := i + 1) fun j y hij hj hy =>
      h j y (by omega) (by rw [List.length_cons]; omega) (List.mem_cons_of_mem _ hy)
    rw [eachPiece, hx]
    dsimp only
    rw [ih]
    rfl

/-- A body that undoes what was done to each piece yields the pieces. -/
theorem eachPiece_numbered {f : ℕ → β → Except ε γ} {g : ℕ → γ → β} : ∀ {i : ℕ} {xs : List γ},
    (∀ j x, i ≤ j → j < i + xs.length → x ∈ xs → f j (g j x) = .ok x) → eachPiece f i (numbered g i xs) = ⟨xs, .ok ()⟩
  | _, [], _ => rfl
  | i, x :: xs, h => by
    have hx := h i x (Nat.le_refl i) (by simp) List.mem_cons_self
    have ih := eachPiece_numbered (f := f) (g := g) (i := i + 1) fun j y hij hj hy =>
      h j y (by omega) (by rw [List.length_cons]; omega) (List.mem_cons_of_mem _ hy)
    rw [numbered, eachPiece, hx]
    dsimp only
    rw [ih]
    rfl

/-- A loop that returns has made one item of each piece. -/
theorem eachPiece_outcome_ok : ∀ {i : ℕ} {xs : List β}, (eachPiece f i xs).outcome = .ok () →
    (eachPiece f i xs).yielded.length = xs.length ∧
      ∀ (k : ℕ) (x : β), xs[k]? = some x → ∃ y, f (i + k) x = .ok y ∧ (eachPiece f i xs).yielded[k]? = some y
  | _, [], _ => ⟨rfl, fun k x h => (by simp at h)⟩
  | i, x :: xs, h => by
    rw [eachPiece] at h ⊢
    rcases hx : f i x with e | y
    · rw [hx] at h
      cases h
    · rw [hx] at h
      dsimp only at h ⊢
      obtain ⟨hlen, hall⟩ := eachPiece_outcome_ok (i := i + 1) h
      refine ⟨by simp [Generated.cons, hlen], fun k z hk => ?_⟩
      cases k with
      | zero =>
        obtain rfl : x = z := by simpa using hk
        exact ⟨y, hx, rfl⟩
      | succ k =>
        obtain ⟨y', hy', hget⟩ := hall k z (by simpa using hk)
        exact ⟨y', by rw [← hy']; congr 1; omega, by simpa [Generated.cons] using hget⟩

/-- A body that takes `t` items off each piece takes as many off them all. -/
theorem length_flatten_eachPiece {f : ℕ → List α → Except ε (List α)} {t : ℕ}
    (hf : ∀ i x y, f i x = .ok y → x.length = y.length + t) : ∀ {i : ℕ} {xs : List (List α)},
    (eachPiece f i xs).outcome = .ok () →
      xs.flatten.length = (eachPiece f i xs).yielded.flatten.length + t * xs.length
  | _, [], _ => rfl
  | i, x :: xs, h => by
    rw [eachPiece] at h ⊢
    rcases hx : f i x with e | y
    · rw [hx] at h
      cases h
    · rw [hx] at h
      have ih := length_flatten_eachPiece hf (i := i + 1) h
      have hlen := hf i x y hx
      simp only [Generated.cons, List.flatten_cons, List.length_append, List.length_cons, Nat.mul_succ]
      omega

end Loop

end Transform.Lib
