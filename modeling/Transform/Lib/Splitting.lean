import Mathlib.Algebra.Order.BigOperators.Group.List
import Mathlib.Data.List.ReduceOption
import Mathlib.Data.String.Basic

/-!
# Lib.Splitting — texts split at a character

`String.splitOn` of one character as `List.splitOn` of the text's characters, and what splitting and joining do to
each other.
-/

namespace Transform.Lib

section SplitOn

open String

/-- What `splitOnAux` finds from a position that stands between `m` and `r`. -/
theorem splitOnAux_singleton (x : Char) : ∀ (r l m : List Char) (acc : List String),
    splitOnAux (ofList (l ++ m ++ r)) (ofList [x]) ⟨utf8Len l⟩ ⟨utf8Len (l ++ m)⟩ 0 acc =
      acc.reverse ++ (List.splitOnPPrepend (· == x) r m.reverse).map ofList
  | [], l, m, acc => by
    have hend : Pos.Raw.atEnd (ofList (l ++ m ++ [])) ⟨utf8Len (l ++ m)⟩ = true := (atEnd_of_valid _ _).2 rfl
    have hpart := extract_of_valid l m []
    rw [splitOnAux, if_pos hend, utf8Len_append, hpart, List.reverse_cons, List.splitOnPPrepend_nil, List.reverse_reverse]
    rfl
  | c :: r, l, m, acc => by
    have hend : ¬ Pos.Raw.atEnd (ofList (l ++ m ++ c :: r)) ⟨utf8Len (l ++ m)⟩ = true :=
      fun h => List.cons_ne_nil _ _ ((atEnd_of_valid _ _).1 h)
    have hget : Pos.Raw.get (ofList (l ++ m ++ c :: r)) ⟨utf8Len (l ++ m)⟩ = c := get_of_valid _ _
    have hsep : Pos.Raw.get (ofList [x]) 0 = x := get_of_valid [] [x]
    have hnext : Pos.Raw.next (ofList (l ++ m ++ c :: r)) ⟨utf8Len (l ++ m)⟩ = ⟨utf8Len (l ++ m ++ [c])⟩ := by
      rw [next_of_valid, utf8Len_append (l ++ m), utf8Len_cons, utf8Len_nil, Nat.zero_add]
    have hsplit : l ++ m ++ c :: r = l ++ (m ++ [c]) ++ r := by simp
    rw [splitOnAux, if_neg hend, hget, hsep]
    by_cases h : c = x
    · subst h
      have hsepNext : Pos.Raw.next (ofList [c]) 0 = ⟨c.utf8Size⟩ := by
        have hn := next_of_valid [] c []
        rwa [utf8Len_nil, Nat.zero_add] at hn
      have hsepEnd : Pos.Raw.atEnd (ofList [c]) ⟨c.utf8Size⟩ = true := by
        have he := (atEnd_of_valid [c] []).2 rfl
        rwa [utf8Len_cons, utf8Len_nil, Nat.zero_add] at he
      have hback : (⟨utf8Len (l ++ m ++ [c])⟩ : Pos.Raw).unoffsetBy ⟨c.utf8Size⟩ = ⟨utf8Len l + utf8Len m⟩ := by
        rw [utf8Len_append, utf8Len_append, utf8Len_cons, utf8Len_nil, Nat.zero_add]
        exact congrArg Pos.Raw.mk (Nat.add_sub_cancel _ _)
      have ih := splitOnAux_singleton c r (l ++ m ++ [c]) [] (ofList m :: acc)
      rw [List.append_nil, List.append_assoc (l ++ m), List.singleton_append] at ih
      have hfound : List.splitOnPPrepend (· == c) (c :: r) m.reverse = m.reverse.reverse :: List.splitOnP (· == c) r :=
        List.splitOnPPrepend_cons_pos (beq_self_eq_true c)
      rw [if_pos (beq_self_eq_true c), hnext, hsepNext, if_pos hsepEnd, hback, extract_of_valid l m (c :: r), ih, hfound]
      simp
    · have ih := splitOnAux_singleton x r l (m ++ [c]) acc
      have hpassed : List.splitOnPPrepend (· == x) (c :: r) m.reverse = List.splitOnPPrepend (· == x) r (c :: m.reverse) :=
        List.splitOnPPrepend_cons_neg (beq_false_of_ne h)
      have hstay : (⟨utf8Len (l ++ m)⟩ : Pos.Raw).unoffsetBy 0 = ⟨utf8Len (l ++ m)⟩ := rfl
      rw [← List.append_assoc l, List.append_assoc (l ++ m), List.singleton_append, List.reverse_append] at ih
      rw [if_neg (by simpa using h), hstay, hnext, hpassed]
      exact ih

/-- `str.split(x)`, for a character. -/
theorem splitOn_singleton (s : String) (x : Char) : s.splitOn (ofList [x]) = (s.toList.splitOn x).map ofList := by
  have h := splitOnAux_singleton x s.toList [] [] []
  have hne : ¬ (ofList [x] == "") = true := by simp
  rw [splitOn, if_neg hne]
  simpa [List.splitOn] using h

end SplitOn

section Pieces

variable {α : Type} {x : α}

/-- Joining fewer pieces gives no longer a text. -/
theorem length_intercalate_filter_le (p : List α → Bool) : ∀ pieces : List (List α),
    ([x].intercalate (pieces.filter p)).length ≤ ([x].intercalate pieces).length
  | [] => Nat.le_refl _
  | [piece] => by
    by_cases h : p piece = true
    · rw [List.filter_cons_of_pos h]
      exact Nat.le_refl _
    · rw [List.filter_cons_of_neg h]
      exact Nat.zero_le _
  | piece :: second :: pieces => by
    have ih := length_intercalate_filter_le p (second :: pieces)
    rw [List.intercalate_cons_cons, List.length_append, List.length_append, List.length_singleton]
    by_cases h : p piece = true
    · rw [List.filter_cons_of_pos h]
      rcases hrest : (second :: pieces).filter p with _ | ⟨first, rest⟩
      · rw [List.intercalate_singleton]
        omega
      · rw [hrest] at ih
        rw [List.intercalate_cons_cons, List.length_append, List.length_append, List.length_singleton]
        omega
    · rw [List.filter_cons_of_neg h]
      omega

/-- What a joined text is made of. -/
theorem mem_intercalate {c : α} : ∀ {pieces : List (List α)}, c ∈ [x].intercalate pieces →
    c = x ∨ ∃ piece ∈ pieces, c ∈ piece
  | [], h => absurd h List.not_mem_nil
  | [piece], h => by
    rw [List.intercalate_singleton] at h
    exact .inr ⟨piece, List.mem_singleton_self _, h⟩
  | piece :: second :: pieces, h => by
    rw [List.intercalate_cons_cons, List.append_assoc] at h
    rcases List.mem_append.1 h with h | h
    · exact .inr ⟨piece, List.mem_cons_self .., h⟩
    rcases List.mem_cons.1 h with h | h
    · exact .inl h
    rcases mem_intercalate h with h | ⟨other, hother, h⟩
    · exact .inl h
    · exact .inr ⟨other, List.mem_cons_of_mem _ hother, h⟩

theorem mem_intercalate_of_mem {c : α} {piece : List α} (h : c ∈ piece) : ∀ {pieces : List (List α)}, piece ∈ pieces →
    c ∈ [x].intercalate pieces
  | [only], hmem => by
    rw [List.intercalate_singleton, ← List.mem_singleton.1 hmem]
    exact h
  | first :: second :: pieces, hmem => by
    rw [List.intercalate_cons_cons, List.append_assoc]
    rcases List.mem_cons.1 hmem with rfl | hmem
    · exact List.mem_append_left _ h
    · exact List.mem_append_right _ (List.mem_cons_of_mem _ (mem_intercalate_of_mem h hmem))

/-- A joined text begins as its first piece. -/
theorem head?_intercalate_cons {piece : List α} {pieces : List (List α)} (h : piece ≠ []) :
    ([x].intercalate (piece :: pieces)).head? = piece.head? := by
  rcases pieces with _ | ⟨second, pieces⟩
  · rw [List.intercalate_singleton]
  · rw [List.intercalate_cons_cons, List.append_assoc, List.head?_append_of_ne_nil _ h]

theorem getLast?_intercalate_concat {piece : List α} (h : piece ≠ []) : ∀ pieces : List (List α),
    ([x].intercalate (pieces ++ [piece])).getLast? = piece.getLast?
  | [] => by rw [List.nil_append, List.intercalate_singleton]
  | first :: pieces => by
    have ih := getLast?_intercalate_concat h pieces
    have hne : [x].intercalate (pieces ++ [piece]) ≠ [] := by
      intro hnil
      rw [hnil, List.getLast?_nil] at ih
      exact h (List.getLast?_eq_none_iff.1 ih.symm)
    rw [List.cons_append, List.intercalate_cons_of_ne_nil (List.concat_ne_nil _ _), List.getLast?_append_of_ne_nil _ hne]
    exact ih

theorem not_of_mem_splitOnP {p : α → Bool} : ∀ {text piece : List α}, piece ∈ text.splitOnP p → ∀ c ∈ piece, p c = false
  | [], piece, h, c, hc => by
    rw [List.splitOnP_nil, List.mem_singleton] at h
    rw [h] at hc
    cases hc
  | d :: text, piece, h, c, hc => by
    rw [List.splitOnP_cons_eq_if_modifyHead] at h
    by_cases hd : p d = true
    · rw [if_pos hd] at h
      rcases List.mem_cons.1 h with rfl | h
      · cases hc
      · exact not_of_mem_splitOnP h c hc
    · obtain ⟨first, rest, hsplit⟩ := List.exists_cons_of_ne_nil (List.splitOnP_ne_nil p text)
      have ih : ∀ q ∈ first :: rest, ∀ c ∈ q, p c = false := fun q hq => not_of_mem_splitOnP (hsplit ▸ hq)
      rw [if_neg hd, hsplit, List.modifyHead_cons] at h
      rcases List.mem_cons.1 h with rfl | h
      · rcases List.mem_cons.1 hc with rfl | hc
        · exact Bool.eq_false_iff.2 hd
        · exact ih first (List.mem_cons_self ..) c hc
      · exact ih piece (List.mem_cons_of_mem _ h) c hc

variable [BEq α] [LawfulBEq α]

theorem splitOn_cons [DecidableEq α] (x c : α) (text : List α) : (c :: text).splitOn x =
    if c = x then [] :: text.splitOn x else (text.splitOn x).modifyHead (c :: ·) := by
  rw [List.splitOn_cons_eq_if_modifyHead]
  simp

theorem not_mem_of_mem_splitOn {text piece : List α} (h : piece ∈ text.splitOn x) : x ∉ piece := by
  intro hx
  rw [List.splitOn_eq_splitOnP] at h
  exact absurd (beq_self_eq_true x) (Bool.eq_false_iff.1 (not_of_mem_splitOnP h x hx))

theorem mem_of_mem_splitOn {c : α} {text piece : List α} (hpiece : piece ∈ text.splitOn x) (hc : c ∈ piece) : c ∈ text := by
  have hjoin : [x].intercalate (text.splitOn x) = text := List.intercalate_splitOn x
  rw [← hjoin]
  exact mem_intercalate_of_mem hc hpiece

end Pieces

/-- Two joined lists where no part of the first is longer. -/
theorem flatMap_eq_flatMap_iff {α β : Type} {l : List α} {f g : α → List β} (h : ∀ a ∈ l, (f a).length ≤ (g a).length) :
    l.flatMap f = l.flatMap g ↔ ∀ a ∈ l, f a = g a := by
  refine ⟨fun heq => ?_, List.flatMap_congr⟩
  induction l with
  | nil => exact List.forall_mem_nil _
  | cons a l ih =>
    obtain ⟨ha, hl⟩ := List.forall_mem_cons.1 h
    have hrest : (l.flatMap f).length ≤ (l.flatMap g).length := by
      rw [List.length_flatMap, List.length_flatMap]
      exact List.sum_le_sum hl
    rw [List.flatMap_cons, List.flatMap_cons] at heq
    have hlength := congrArg List.length heq
    rw [List.length_append, List.length_append] at hlength
    obtain ⟨hfirst, hothers⟩ := List.append_inj heq (by omega)
    exact List.forall_mem_cons.2 ⟨hfirst, ih hl hothers⟩

/-! ## Texts with marks -/

section Marks

variable {α : Type} [BEq α] [LawfulBEq α] [DecidableEq α]

theorem splitOn_reduceOption (x : α) (text : List (Option α)) :
    text.reduceOption.splitOn x = (text.splitOn (some x)).map List.reduceOption := by
  induction text with
  | nil => rfl
  | cons c text ih =>
    rcases c with _ | c
    · rw [List.reduceOption_cons_of_none, ih, splitOn_cons, if_neg (Option.some_ne_none x).symm]
      rcases text.splitOn (some x) with _ | ⟨first, rest⟩ <;> rfl
    · rw [List.reduceOption_cons_of_some, splitOn_cons, splitOn_cons, ih]
      by_cases hc : c = x
      · rw [if_pos hc, if_pos (congrArg some hc)]
        rfl
      · rw [if_neg hc, if_neg fun h => hc (Option.some.inj h)]
        rcases text.splitOn (some x) with _ | ⟨first, rest⟩ <;> rfl

/-- The pieces where each mark is a separator of its own. -/
theorem splitOn_map_getD (x : α) (text : List (Option α)) : (text.map (·.getD x)).splitOn x =
    (text.splitOn (some x)).flatMap fun piece => (piece.splitOn none).map List.reduceOption := by
  induction text with
  | nil => rfl
  | cons c text ih =>
    obtain ⟨first, rest, hsplit⟩ := List.exists_cons_of_ne_nil (List.splitOn_ne_nil (some x) text)
    rw [hsplit, List.flatMap_cons] at ih
    rw [List.map_cons, splitOn_cons, splitOn_cons, ih, hsplit]
    rcases c with _ | c
    · rw [if_pos (show none.getD x = x from rfl), if_neg (Option.some_ne_none x).symm, List.modifyHead_cons,
        List.flatMap_cons, splitOn_cons, if_pos rfl]
      rfl
    · by_cases hc : c = x
      · rw [if_pos (congrArg some hc), if_pos (show (some c).getD x = x from hc), List.flatMap_cons, List.flatMap_cons]
        rfl
      · have hhead : (some c :: first).splitOn none = (first.splitOn none).modifyHead (some c :: ·) := by
          rw [splitOn_cons, if_neg (Option.some_ne_none c)]
        rw [if_neg fun h => hc (Option.some.inj h), if_neg (show (some c).getD x ≠ x from hc), List.modifyHead_cons,
          List.flatMap_cons, hhead]
        obtain ⟨shown, others, hshown⟩ := List.exists_cons_of_ne_nil (List.splitOn_ne_nil none first)
        rw [hshown]
        rfl

end Marks

end Transform.Lib
