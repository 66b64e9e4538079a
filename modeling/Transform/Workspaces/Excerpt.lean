import Transform.Workspaces.Execution
import Mathlib.Data.List.TakeWhile

/-!
# Workspaces.Excerpt — what an excerpt says of the text that it is cut from

`bound_output` keeps the end of a captured stream after a notice.  The notice states how far the text is over the limit, not
how much of it is left out, which is more by the length of the notice (`boundOutput_faithful_iff`).
-/

namespace Transform.Workspaces

open Conversions

section Excerpts

/-- The notice that states how much is left out. -/
def statingNotice (omitted : ℤ) : String := s!"… [truncated; {omitted} earlier characters omitted]\n"

def bareNotice : String := "…\n"

/-- An excerpt that says what it is: the text, or a notice and the end of the text, within the limit. -/
structure FaithfulExcerpt (text : String) (limit : ℤ) (excerpt : String) (truncated : Bool) : Prop where
  fits : excerpt.length ≤ limit
  whole : excerpt = text ∧ truncated = false ↔ text.length ≤ limit
  cut : limit < text.length → ∃ notice kept : String, excerpt = notice ++ kept ∧ kept.toList <:+ text.toList ∧
    (notice = bareNotice ∨ notice = statingNotice (text.length - kept.length))

variable {text : String} {limit : ℤ}

/-- What `bound_output` keeps of a text after a notice. -/
def keptTail (text : String) (keep : ℤ) : String := String.ofList (text.toList.drop (text.length - keep).toNat)

theorem boundOutput_cut (h : 0 < limit) (hcut : limit < text.length) :
    boundOutput text limit =
      let notice := statingNotice (text.length - limit)
      let marker := if limit ≤ notice.length then bareNotice else notice
      .ok (marker ++ keptTail text (limit - marker.length), true) := by
  unfold boundOutput
  rw [if_neg (by omega), if_neg (by omega)]
  rfl

theorem keptTail_suffix {keep : ℤ} : (keptTail text keep).toList <:+ text.toList := by
  rw [keptTail, String.toList_ofList]
  exact List.drop_suffix _ _

theorem length_keptTail {keep : ℤ} (h : 0 ≤ keep) (hle : keep ≤ text.length) : (keptTail text keep).length = keep := by
  rw [keptTail, String.length_ofList, List.length_drop, String.length_toList]
  omega

theorem toList_statingNotice (k : ℕ) : (statingNotice k).toList =
    "… [truncated; ".toList ++ (Nat.toDigits 10 k ++ ' ' :: "earlier characters omitted]\n".toList) := by
  rw [← Nat.toList_repr]
  unfold statingNotice
  simp only [String.toList_append, toString, Int.repr, List.append_assoc]
  rfl

theorem length_statingNotice (k : ℕ) : 2 < (statingNotice k).length := by
  rw [← String.length_toList, toList_statingNotice, List.length_append]
  have h : "… [truncated; ".toList.length = 14 := by decide
  omega

theorem stated_unique {m n : ℕ} {kept kept' : String} (h : statingNotice m ++ kept = statingNotice n ++ kept') : m = n := by
  have hdigits : ∀ (k : ℕ) (rest : List Char), (Nat.toDigits 10 k ++ ' ' :: rest).takeWhile (· ≠ ' ') = Nat.toDigits 10 k := by
    intro k rest
    have hall : ∀ c ∈ Nat.toDigits 10 k, decide (c ≠ ' ') = true := by
      intro c hc
      have hdigit := Nat.isDigit_of_mem_toDigits (by omega) (by omega) hc
      rw [decide_eq_true_eq]
      rintro rfl
      cases hdigit
    rw [List.takeWhile_append_of_pos hall]
    simp
  have hlist := congrArg String.toList h
  simp only [String.toList_append, toList_statingNotice, List.append_assoc, List.cons_append] at hlist
  have hread := congrArg (List.takeWhile (· ≠ ' ')) (List.append_cancel_left hlist)
  rw [hdigits, hdigits] at hread
  have hvalue := congrArg (Nat.ofDigitChars 10 · 0) hread
  simpa only [Nat.ofDigitChars_ten_toDigits] using hvalue

theorem bare_ne_stating {n : ℕ} {kept kept' : String} : bareNotice ++ kept ≠ statingNotice n ++ kept' := by
  intro h
  have hlist := congrArg (fun s : String => s.toList[1]?) h
  have hbare : "…\n".toList = ['…', '\n'] := by decide
  have hstating : "… [truncated; ".toList = '…' :: ' ' :: "[truncated; ".toList := by decide
  simp only [String.toList_append, toList_statingNotice, bareNotice, hbare, hstating, List.cons_append] at hlist
  cases hlist

theorem faithful_iff_of_bare (h : 1 ≤ limit) (hcut : limit < text.length)
    (hroom : limit ≤ (statingNotice (text.length - limit)).length) :
    (∃ excerpt truncated, boundOutput text limit = .ok (excerpt, truncated) ∧
      FaithfulExcerpt text limit excerpt truncated) ↔ 2 ≤ limit := by
  have hbare : (bareNotice.length : ℤ) = 2 := rfl
  rw [boundOutput_cut (by omega) hcut]
  dsimp only
  rw [if_pos hroom, hbare]
  constructor
  · rintro ⟨excerpt, truncated, hsome, hf⟩
    cases hsome
    have hfits := hf.fits
    rw [String.length_append] at hfits
    omega
  · intro htwo
    have hkept : (keptTail text (limit - 2)).length = limit - 2 := length_keptTail (by omega) (by omega)
    refine ⟨_, _, rfl, ?_, ?_, fun _ => ⟨bareNotice, _, rfl, keptTail_suffix, .inl rfl⟩⟩
    · rw [String.length_append]
      omega
    · exact iff_of_false (fun hw => by cases hw.2) (by omega)

theorem not_faithful_of_stated (h : 1 ≤ limit) (hcut : limit < text.length)
    (hroom : (statingNotice (text.length - limit)).length < limit) :
    ¬ ∃ excerpt truncated, boundOutput text limit = .ok (excerpt, truncated) ∧
      FaithfulExcerpt text limit excerpt truncated := by
  obtain ⟨omitted, homitted⟩ : ∃ omitted : ℕ, (text.length : ℤ) - limit = omitted :=
    ⟨(text.length - limit).toNat, by omega⟩
  rw [boundOutput_cut (by omega) hcut]
  dsimp only
  rw [if_neg (by omega)]
  rw [homitted] at hroom ⊢
  rintro ⟨excerpt, truncated, hsome, hf⟩
  cases hsome
  obtain ⟨notice, kept, happend, hsuffix, hnotice⟩ := hf.cut hcut
  have hkept : (keptTail text (limit - (statingNotice omitted).length)).length =
      limit - (statingNotice omitted).length := length_keptTail (by omega) (by omega)
  rcases hnotice with rfl | rfl
  · exact bare_ne_stating happend.symm
  · have hlong := length_statingNotice omitted
    have hle := hsuffix.length_le
    rw [String.length_toList, String.length_toList] at hle
    obtain ⟨stated, hstated⟩ : ∃ stated : ℕ, (text.length : ℤ) - kept.length = stated :=
      ⟨text.length - kept.length, by omega⟩
    rw [hstated] at happend
    have hsame := stated_unique happend
    have hlengths := congrArg String.length happend
    rw [String.length_append, String.length_append, hsame] at hlengths
    rw [hsame] at hkept hlong
    omega

/-- **An excerpt says what it is** exactly where it is the whole text, or where its notice states no number and fits. -/
theorem boundOutput_faithful_iff (h : 1 ≤ limit) :
    (∃ excerpt truncated, boundOutput text limit = .ok (excerpt, truncated) ∧
      FaithfulExcerpt text limit excerpt truncated) ↔
    text.length ≤ limit ∨ 2 ≤ limit ∧ limit ≤ (statingNotice (text.length - limit)).length := by
  by_cases hfit : text.length ≤ limit
  · refine iff_of_true ⟨text, false, ?_, by omega, by simp [hfit], fun hcut => by omega⟩ (.inl hfit)
    unfold boundOutput
    rw [if_neg (by omega), if_pos hfit]
  · by_cases hroom : limit ≤ (statingNotice (text.length - limit)).length
    · rw [faithful_iff_of_bare h (by omega) hroom]
      exact ⟨fun htwo => .inr ⟨htwo, hroom⟩, fun hle => hle.elim (fun hle => absurd hle hfit) And.left⟩
    · refine iff_of_false (not_faithful_of_stated h (by omega) (by omega)) ?_
      rintro (hle | ⟨-, hle⟩)
      · exact hfit hle
      · exact hroom hle

theorem boundOutput_faithful_small : (∃ excerpt truncated, boundOutput "traceback" 4 = .ok (excerpt, truncated) ∧
    FaithfulExcerpt "traceback" 4 excerpt truncated) ↔
    ("traceback".length : ℤ) ≤ 4 ∨ 2 ≤ (4 : ℤ) ∧ (4 : ℤ) ≤ (statingNotice ("traceback".length - 4)).length :=
  boundOutput_faithful_iff (by decide)

/-- Of a hundred characters within sixty, the notice states forty, and eighty-five are left out. -/
theorem notice_understates : ¬ ∃ excerpt truncated,
    boundOutput (String.ofList (List.replicate 100 'a')) 60 = .ok (excerpt, truncated) ∧
      FaithfulExcerpt (String.ofList (List.replicate 100 'a')) 60 excerpt truncated :=
  not_faithful_of_stated (by decide) (by rw [String.length_ofList]; decide) (by rw [String.length_ofList]; decide +kernel)

end Excerpts

end Transform.Workspaces
