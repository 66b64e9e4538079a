import Transform.Lib.Bytes

/-!
# Lib.FileTable — files by name, and what open descriptors write to

A name leads to a file, and a file has bytes.  Opening for output truncates the file of the name, or makes one;
removing the name leaves the file to whoever has it open.  Names lead to files of their own, so what is written through
a descriptor is seen under the name it was opened by, and under no other.
-/

namespace Transform.Lib

/-- Files under names. -/
structure FileTable (P : Type) where
  names : P → Option ℕ
  data : ℕ → Bytes
  next : ℕ
  below : ∀ {p n}, names p = some n → n < next
  inj : ∀ {p q n}, names p = some n → names q = some n → p = q

/-- Bytes with some of them overwritten, from an offset on; a gap is filled with zeros. -/
def splice (old : Bytes) (offset : ℕ) (bytes : Bytes) : Bytes :=
  old.take offset ++ List.replicate (offset - old.length) 0 ++ bytes ++ old.drop (offset + bytes.length)

theorem splice_length (old bytes : Bytes) : splice old old.length bytes = old ++ bytes := by
  have hdrop : old.drop (old.length + bytes.length) = [] := List.drop_eq_nil_of_le (by omega)
  unfold splice
  rw [List.take_length, Nat.sub_self, hdrop]
  simp

namespace FileTable

variable {P : Type} [DecidableEq P] (t : FileTable P)

def empty : FileTable P where
  names _ := none
  data _ := []
  next := 0
  below h := by cases h
  inj h := by cases h

/-- What is read under the name. -/
def content (p : P) : Option Bytes := (t.names p).map t.data

def create (p : P) : FileTable P where
  names := Function.update t.names p (some t.next)
  data := Function.update t.data t.next []
  next := t.next + 1
  below {q n} h := by
    by_cases hq : q = p
    · subst hq
      rw [Function.update_self] at h
      cases h
      omega
    · rw [Function.update_of_ne hq] at h
      have := t.below h
      omega
  inj {q r n} hq hr := by
    have hfresh : ∀ q, t.names q ≠ some t.next := fun q h => absurd (t.below h) (by omega)
    by_cases hqp : q = p
    · by_cases hrp : r = p
      · rw [hqp, hrp]
      · subst hqp
        rw [Function.update_self] at hq
        rw [Function.update_of_ne hrp] at hr
        cases hq
        exact absurd hr (hfresh r)
    · rw [Function.update_of_ne hqp] at hq
      by_cases hrp : r = p
      · subst hrp
        rw [Function.update_self] at hr
        cases hr
        exact absurd hq (hfresh q)
      · rw [Function.update_of_ne hrp] at hr
        exact t.inj hq hr

/-- The file of the name, emptied; or a new one. -/
def openTrunc (p : P) : FileTable P :=
  match t.names p with
  | some n => { t with data := Function.update t.data n [] }
  | none => t.create p

def writeAt (n offset : ℕ) (bytes : Bytes) : FileTable P :=
  { t with data := Function.update t.data n (splice (t.data n) offset bytes) }

/-- Remove the name. -/
def unlink (p : P) : FileTable P where
  names := Function.update t.names p none
  data := t.data
  next := t.next
  below {q n} h := by
    by_cases hq : q = p
    · subst hq
      rw [Function.update_self] at h
      cases h
    · rw [Function.update_of_ne hq] at h
      exact t.below h
  inj {q r n} hq hr := by
    by_cases hqp : q = p
    · subst hqp
      rw [Function.update_self] at hq
      cases hq
    · by_cases hrp : r = p
      · subst hrp
        rw [Function.update_self] at hr
        cases hr
      · rw [Function.update_of_ne hqp] at hq
        rw [Function.update_of_ne hrp] at hr
        exact t.inj hq hr

variable {t} {p q : P} {n : ℕ}

/-! ## What is read after a write -/

theorem openTrunc_self (t : FileTable P) (p : P) :
    ∃ n, (t.openTrunc p).names p = some n ∧ (t.openTrunc p).content p = some [] := by
  unfold openTrunc
  split
  · rename_i n hn
    refine ⟨n, hn, ?_⟩
    show (t.names p).map (Function.update t.data n []) = some []
    rw [hn]
    exact congrArg some (Function.update_self ..)
  · refine ⟨t.next, Function.update_self .., ?_⟩
    show (Function.update t.names p (some t.next) p).map (Function.update t.data t.next []) = some []
    rw [Function.update_self]
    exact congrArg some (Function.update_self ..)

theorem openTrunc_other (t : FileTable P) (hqp : q ≠ p) :
    (t.openTrunc p).names q = t.names q ∧ (t.openTrunc p).content q = t.content q := by
  have hnames : (t.openTrunc p).names q = t.names q := by
    unfold openTrunc
    split
    · rfl
    · exact Function.update_of_ne hqp _ _
  refine ⟨hnames, ?_⟩
  unfold content
  rw [hnames]
  rcases hq : t.names q with _ | m
  · rfl
  · refine congrArg some ?_
    unfold openTrunc
    split
    · rename_i n hn
      refine Function.update_of_ne (fun hmn => hqp ?_) _ _
      subst hmn
      exact t.inj hq hn
    · have := t.below hq
      exact Function.update_of_ne (by omega) _ _

omit [DecidableEq P] in
theorem writeAt_end {bytes old : Bytes} (hp : t.names p = some n) (hold : t.content p = some old) :
    (t.writeAt n old.length bytes).content p = some (old ++ bytes) := by
  have hdata : t.data n = old := by
    unfold content at hold
    rw [hp] at hold
    exact Option.some.inj hold
  show (t.names p).map (Function.update t.data n (splice (t.data n) old.length bytes)) = some (old ++ bytes)
  rw [hp, hdata, splice_length]
  exact congrArg some (Function.update_self ..)

omit [DecidableEq P] in
theorem writeAt_other {bytes : Bytes} {offset : ℕ} (hp : t.names p = some n) (hqp : q ≠ p) :
    (t.writeAt n offset bytes).content q = t.content q := by
  show (t.names q).map (Function.update t.data n (splice (t.data n) offset bytes)) = (t.names q).map t.data
  rcases hq : t.names q with _ | m
  · rfl
  · refine congrArg some (Function.update_of_ne (fun hmn => hqp ?_) _ _)
    subst hmn
    exact t.inj hq hp

end FileTable

end Transform.Lib
