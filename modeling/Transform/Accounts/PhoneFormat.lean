import Transform.Accounts.Phone
import Transform.Lib.Trim

/-!
# Accounts.PhoneFormat — the numbers that `normalize_phone_number` lets through

Blanks are stripped first and separators removed after that, so that a blank behind a separator stays.  The pattern takes
the decimal digits of every script, and its `$` stands before a last line end as well as at the end.

* `normalizes_iff`: the inputs that are normalised to one E.164 spelling of their number.
-/

namespace Transform.Accounts

open Lib Conversions

/-! ## Digits and patterns -/

section Format

/-- Where the ten decimal digits of a script begin (Unicode 16.0). -/
def decimalZeros : List ℕ :=
  [0x30, 0x660, 0x6F0, 0x7C0, 0x966, 0x9E6, 0xA66, 0xAE6, 0xB66, 0xBE6, 0xC66, 0xCE6, 0xD66, 0xDE6, 0xE50, 0xED0, 0xF20,
    0x1040, 0x1090, 0x17E0, 0x1810, 0x1946, 0x19D0, 0x1A80, 0x1A90, 0x1B50, 0x1BB0, 0x1C40, 0x1C50, 0xA620, 0xA8D0, 0xA900,
    0xA9D0, 0xA9F0, 0xAA50, 0xABF0, 0xFF10, 0x104A0, 0x10D30, 0x10D40, 0x11066, 0x110F0, 0x11136, 0x111D0, 0x112F0, 0x11450,
    0x114D0, 0x11650, 0x116C0, 0x116D0, 0x116DA, 0x11730, 0x118E0, 0x11950, 0x11BF0, 0x11C50, 0x11D50, 0x11DA0, 0x11F50,
    0x16130, 0x16A60, 0x16AC0, 0x16B50, 0x16D70, 0x1CCF0, 0x1D7CE, 0x1D7D8, 0x1D7E2, 0x1D7EC, 0x1D7F6, 0x1E140, 0x1E2F0,
    0x1E4F0, 0x1E5F1, 0x1E950, 0x1FBF0]

/-- `\d` of a pattern for `str`. -/
def isDecimalDigit (c : Char) : Bool := decimalZeros.any fun first => first ≤ c.toNat && c.toNat < first + 10

/-- `normalize_phone_number`. -/
abbrev normalizePhone (raw : String) : Except String String := normalizePhoneNumber isDecimalDigit raw

/-- `is_e164`. -/
def isE164 (value : String) : Bool := value ≠ "" && matchesE164 isDecimalDigit value.toList

end Format

/-! ## The property -/

section Property

/-- `+` and 8 to 15 ASCII digits, of which the first is not 0. -/
def E164 (s : String) : Prop :=
  ∃ digits, s.toList = '+' :: digits ∧ (∀ c ∈ digits, c.isDigit = true) ∧ digits.head? ≠ some '0' ∧
    8 ≤ digits.length ∧ digits.length ≤ 15

/-- A leading `00` as a `+`. -/
def dialled : List Char → List Char
  | '0' :: '0' :: rest => '+' :: rest
  | text => text

/-- What an input says, without separators, without the blanks around that, and with `+` for a leading `00`. -/
def numberOf (raw : String) : List Char := dialled (trim isStripped (raw.toList.filter fun c => !isSeparator c))

/-- An input is refused or brought into the one spelling of its number, which is left as it is; another input of the same
number has the same result; and `is_e164` holds of exactly the results. -/
structure Normalizes (raw other : String) : Prop where
  shape : ∀ value, normalizePhone raw = .ok value → E164 value
  idempotent : ∀ value, normalizePhone raw = .ok value → normalizePhone value = .ok value
  same : numberOf raw = numberOf other → normalizePhone raw = normalizePhone other
  range : isE164 raw = true ↔ ∃ source, normalizePhone source = .ok raw

/-- `+`, an ASCII digit other than 0, and 7 to 14 decimal digits. -/
def IsNumber (text : List Char) : Prop :=
  ∃ first digits, text = '+' :: first :: digits ∧ first.isDigit = true ∧ first ≠ '0' ∧
    (∀ c ∈ digits, isDecimalDigit c = true) ∧ 7 ≤ digits.length ∧ digits.length ≤ 14

/-- The input without its outer blanks and then without its separators. -/
def withoutSeparators (raw : String) : List Char := (trim isStripped raw.toList).filter fun c => !isSeparator c

/-- No blank is left at an end when the separators are gone. -/
def Bare (raw : String) : Prop := trim isStripped (withoutSeparators raw) = withoutSeparators raw

/-- One line end is left at the end, and no other blank at an end, when the separators are gone. -/
def EndsLine (raw : String) : Prop := withoutSeparators raw = trim isStripped (withoutSeparators raw) ++ ['\n']

/-- Where an input holds a number, no line end is left behind it; its digits are ASCII if it is bare; and another input of
the number leaves no line end either, and is bare exactly if this one is. -/
def Regular (raw other : String) : Prop :=
  IsNumber (numberOf raw) → ¬ EndsLine raw ∧ (Bare raw → ∀ c ∈ (numberOf raw).tail, c.isDigit = true) ∧
    (numberOf raw = numberOf other → ¬ EndsLine other ∧ (Bare raw ↔ Bare other))

end Property

/-! ## The result -/

section Result

variable {raw other : String} {c : Char} {text digits : List Char}

theorem dialled_cases (text : List Char) : dialled text = text ∨
    ∃ rest, text = '0' :: '0' :: rest ∧ dialled text = '+' :: rest := by
  unfold dialled
  split
  · exact Or.inr ⟨_, rfl, rfl⟩
  · exact Or.inl rfl

def notInternational : String := "Enter a phone number in international format, e.g. +14155552671."

theorem normalizePhone_eq (raw : String) : normalizePhone raw =
    if matchesE164 isDecimalDigit (dialled (withoutSeparators raw)) then
      .ok (String.ofList (dialled (withoutSeparators raw)))
    else .error notInternational := by
  have hclean : (strip raw).toList.filter (fun c => !isSeparator c) = withoutSeparators raw := by
    unfold strip withoutSeparators
    rw [String.toList_ofList]
    rfl
  unfold normalizePhone normalizePhoneNumber
  rw [hclean]
  dsimp only
  split
  · rename_i heq
    rw [heq]
    rfl
  · rename_i hnot
    rw [(dialled_cases (withoutSeparators raw)).resolve_right fun ⟨rest, h, _⟩ => hnot rest h]
    rfl

def blankCodes : List ℕ :=
  [0x9, 0xA, 0xB, 0xC, 0xD, 0x1C, 0x1D, 0x1E, 0x1F, 0x20, 0x85, 0xA0, 0x1680, 0x2000, 0x2001, 0x2002, 0x2003, 0x2004,
    0x2005, 0x2006, 0x2007, 0x2008, 0x2009, 0x200A, 0x2028, 0x2029, 0x202F, 0x205F, 0x3000] ++
  [' ', '-', '(', ')', '.', '\t'].map Char.toNat

theorem mem_blankCodes (h : isStripped c = true ∨ isSeparator c = true) : c.toNat ∈ blankCodes := by
  rcases h with h | h
  · exact List.mem_append_left _ (of_decide_eq_true h)
  · exact List.mem_append_right _ (List.mem_map_of_mem (of_decide_eq_true h))

theorem not_digit_of_mem_blankCodes :
    ∀ code ∈ blankCodes, ∀ first ∈ decimalZeros, ¬ (first ≤ code ∧ code < first + 10) := by decide +kernel

theorem isDecimalDigit_spec (h : isDecimalDigit c = true) : isStripped c = false ∧ isSeparator c = false := by
  obtain ⟨first, hfirst, hc⟩ := List.any_eq_true.mp h
  rw [Bool.and_eq_true, decide_eq_true_eq, decide_eq_true_eq] at hc
  have hplain : ¬ (isStripped c = true ∨ isSeparator c = true) := fun hblank =>
    not_digit_of_mem_blankCodes c.toNat (mem_blankCodes hblank) first hfirst hc
  simpa using hplain

theorem isDecimalDigit_of_isDigit (h : c.isDigit = true) : isDecimalDigit c = true := by
  have hc : 48 ≤ c.toNat ∧ c.toNat ≤ 57 := Char.isDigit_iff_toNat.mp h
  refine List.any_eq_true.mpr ⟨0x30, List.mem_cons_self, ?_⟩
  rw [Bool.and_eq_true, decide_eq_true_eq, decide_eq_true_eq]
  omega

theorem not_isDecimalDigit_newline : isDecimalDigit '\n' = false := by decide

/-- The pattern holds of a number, and of one with a line end behind it. -/
theorem matchesE164_iff : matchesE164 isDecimalDigit text = true ↔
    ∃ number, IsNumber number ∧ (text = number ∨ text = number ++ ['\n']) := by
  have hlast : ∀ rest : List Char, (∀ c ∈ rest, isDecimalDigit c = true) → rest.getLast? ≠ some '\n' := by
    intro rest hrest hget
    have hnewline := hrest '\n' (List.mem_of_getLast? hget)
    rw [not_isDecimalDigit_newline] at hnewline
    cases hnewline
  constructor
  · intro h
    unfold matchesE164 at h
    split at h
    · rename_i first rest
      simp only [Bool.and_eq_true, decide_eq_true_eq, List.all_eq_true] at h
      obtain ⟨⟨⟨⟨hfirst, hne⟩, hdigits⟩, hmin⟩, hmax⟩ := h
      split_ifs at hdigits hmin hmax with hget
      · refine ⟨'+' :: first :: rest.dropLast, ⟨first, _, rfl, hfirst, hne, hdigits, hmin, hmax⟩, Or.inr ?_⟩
        rw [List.cons_append, List.cons_append, List.dropLast_append_getLast? _ hget]
      · exact ⟨'+' :: first :: rest, ⟨first, rest, rfl, hfirst, hne, hdigits, hmin, hmax⟩, Or.inl rfl⟩
    · cases h
  · rintro ⟨number, ⟨first, digits, rfl, hfirst, hne, hdigits, hmin, hmax⟩, rfl | rfl⟩
    · unfold matchesE164
      simp only [if_neg (hlast digits hdigits), Bool.and_eq_true, decide_eq_true_eq, List.all_eq_true]
      exact ⟨⟨⟨⟨hfirst, hne⟩, hdigits⟩, hmin⟩, hmax⟩
    · show matchesE164 isDecimalDigit ('+' :: first :: (digits ++ ['\n'])) = true
      have hget : (digits ++ ['\n']).getLast? = some '\n' := List.getLast?_concat
      have hdrop : (digits ++ ['\n']).dropLast = digits := List.dropLast_concat
      unfold matchesE164
      simp only [if_pos hget, hdrop, Bool.and_eq_true, decide_eq_true_eq, List.all_eq_true]
      exact ⟨⟨⟨⟨hfirst, hne⟩, hdigits⟩, hmin⟩, hmax⟩

theorem plain_of_isNumber (h : IsNumber text) : (∀ c ∈ text, isStripped c = false ∧ isSeparator c = false) ∧
    dialled text = text ∧ text ≠ [] := by
  obtain ⟨first, digits, rfl, hfirst, -, hdigits, -⟩ := h
  refine ⟨?_, rfl, nofun⟩
  intro c hc
  rcases List.mem_cons.mp hc with rfl | hc
  · decide
  · refine isDecimalDigit_spec ?_
    rcases List.mem_cons.mp hc with rfl | hc
    · exact isDecimalDigit_of_isDigit hfirst
    · exact hdigits c hc

theorem numberOf_eq (raw : String) : numberOf raw = dialled (trim isStripped (withoutSeparators raw)) := by
  rw [numberOf, withoutSeparators, trim_filter]

theorem dialled_append {number after : List Char} (h : dialled text = number) (hnumber : IsNumber number) :
    dialled (text ++ after) = number ++ after := by
  rcases dialled_cases text with hsame | ⟨rest, rfl, hdialled⟩
  · obtain ⟨first, digits, rfl, -⟩ := hnumber
    rw [hsame] at h
    rw [h]
    rfl
  · rw [hdialled] at h
    rw [← h]
    rfl

theorem trim_of_dialled {number : List Char} (h : dialled text = number) (hnumber : IsNumber number) :
    trim isStripped text = text ∧ text ≠ [] := by
  obtain ⟨hplain, -, -⟩ := plain_of_isNumber hnumber
  rcases dialled_cases text with hsame | ⟨rest, rfl, hdialled⟩
  · rw [hsame] at h
    subst h
    refine ⟨trim_eq_self ?_ ?_, (plain_of_isNumber hnumber).2.2⟩
    · exact fun c hc => (hplain c (List.mem_of_mem_head? hc)).1
    · exact fun c hc => (hplain c (List.mem_of_getLast? hc)).1
  · rw [hdialled] at h
    subst h
    refine ⟨trim_eq_self ?_ ?_, nofun⟩
    · rintro c ⟨⟩
      decide
    · intro c hc
      have hc : ('+' :: rest).getLast? = some c ∨ c = '0' := by
        cases rest with
        | nil =>
          right
          exact (Option.some.inj hc).symm
        | cons d rest => exact Or.inl hc
      rcases hc with hc | rfl
      · exact (hplain c (List.mem_of_getLast? hc)).1
      · decide

theorem isStripped_newline : ∀ c ∈ ['\n'], isStripped c = true := by
  intro c hc
  rw [List.mem_singleton.mp hc]
  decide

/-- What the pattern holds of holds the number that the pattern is about. -/
theorem number_of_matches {number after : List Char} (h : IsNumber number) (hafter : ∀ c ∈ after, isStripped c = true)
    (hmatches : matchesE164 isDecimalDigit (number ++ after) = true) : after = [] ∨ after = ['\n'] := by
  have htrim : ∀ {number after : List Char}, IsNumber number → (∀ c ∈ after, isStripped c = true) →
      trim isStripped (number ++ after) = number := by
    intro number after h hafter
    rw [trim_after hafter, (trim_of_dialled (plain_of_isNumber h).2.1 h).1]
  obtain ⟨number', h', heq⟩ := matchesE164_iff.mp hmatches
  obtain ⟨after', heq, hcases⟩ : ∃ after', number ++ after = number' ++ after' ∧ (after' = [] ∨ after' = ['\n']) := by
    rcases heq with heq | heq
    · exact ⟨[], heq.trans (List.append_nil _).symm, Or.inl rfl⟩
    · exact ⟨['\n'], heq, Or.inr rfl⟩
  have hafter' : ∀ c ∈ after', isStripped c = true := by
    rcases hcases with rfl | rfl
    · exact nofun
    · exact isStripped_newline
  have hsame : number = number' := by
    rw [← htrim h hafter, heq, htrim h' hafter']
  subst hsame
  rw [List.append_cancel_left heq]
  exact hcases

theorem normalize_of_number (h : IsNumber (numberOf raw)) :
    (Bare raw ∧ ¬ EndsLine raw ∧ normalizePhone raw = .ok (String.ofList (numberOf raw))) ∨
    (EndsLine raw ∧ ¬ Bare raw ∧ normalizePhone raw = .ok (String.ofList (numberOf raw ++ ['\n']))) ∨
    (¬ EndsLine raw ∧ ¬ Bare raw ∧ normalizePhone raw = .error notInternational) := by
  obtain ⟨number, hnumber⟩ : ∃ number, numberOf raw = number := ⟨_, rfl⟩
  obtain ⟨before, after, hsplit, hbefore, hafter⟩ := trim_split isStripped (withoutSeparators raw)
  obtain ⟨core, hcore⟩ : ∃ core, trim isStripped (withoutSeparators raw) = core := ⟨_, rfl⟩
  have hdialled : dialled core = number := by rw [← hnumber, numberOf_eq, hcore]
  rw [hnumber] at h ⊢
  unfold Bare EndsLine
  rw [hcore] at hsplit ⊢
  obtain ⟨-, hne⟩ := trim_of_dialled hdialled h
  rw [normalizePhone_eq, hsplit]
  cases before with
  | nil =>
    rw [List.nil_append, dialled_append hdialled h, List.append_cancel_left_eq]
    rw [List.self_eq_append_right]
    by_cases hnil : after = []
    · subst hnil
      refine Or.inl ⟨rfl, nofun, ?_⟩
      rw [List.append_nil, if_pos (matchesE164_iff.mpr ⟨number, h, Or.inl rfl⟩)]
    · by_cases hline : after = ['\n']
      · subst hline
        refine Or.inr (Or.inl ⟨rfl, nofun, ?_⟩)
        rw [if_pos (matchesE164_iff.mpr ⟨number, h, Or.inr rfl⟩)]
      · refine Or.inr (Or.inr ⟨hline, hnil, if_neg ?_⟩)
        intro hmatches
        rcases number_of_matches h hafter hmatches with hnil' | hline'
        · exact hnil hnil'
        · exact hline hline'
  | cons b before =>
    -- the first character is a blank, which no number begins with
    have hb : isStripped b = true := hbefore b List.mem_cons_self
    have hhead : ∀ after', (b :: before) ++ core ++ after ≠ core ++ after' := by
      intro after' heq
      cases core with
      | nil => exact hne rfl
      | cons c core =>
        have hbc : b = c := (List.cons.inj heq).1
        have hc : isStripped c = false := by
          have hhead := head_trim (p := isStripped) (l := withoutSeparators raw)
          rw [hcore] at hhead
          exact hhead c rfl
        rw [hbc, hc] at hb
        cases hb
    refine Or.inr (Or.inr ⟨fun heq => hhead _ heq, fun heq => hhead [] (by rw [List.append_nil]; exact heq.symm), ?_⟩)
    have hsame : dialled (b :: before ++ core ++ after) = b :: before ++ core ++ after := by
      refine (dialled_cases _).resolve_right ?_
      rintro ⟨rest, heq, -⟩
      have hzero : b = '0' := (List.cons.inj heq).1
      rw [hzero] at hb
      cases hb
    rw [hsame, if_neg]
    intro hmatches
    obtain ⟨number', ⟨first, digits, rfl, -⟩, heq⟩ := matchesE164_iff.mp hmatches
    have hplus : b = '+' := by
      rcases heq with heq | heq
      · exact (List.cons.inj heq).1
      · exact (List.cons.inj heq).1
    rw [hplus] at hb
    cases hb

theorem normalize_of_no_number (h : ¬ IsNumber (numberOf raw)) :
    normalizePhone raw = .error notInternational := by
  rw [normalizePhone_eq, if_neg]
  intro hmatches
  obtain ⟨number, hnumber, heq⟩ := matchesE164_iff.mp hmatches
  obtain ⟨after, heq, hafter⟩ : ∃ after, dialled (withoutSeparators raw) = number ++ after ∧
      ∀ c ∈ after, isStripped c = true := by
    rcases heq with heq | heq
    · exact ⟨[], heq.trans (List.append_nil _).symm, nofun⟩
    · exact ⟨['\n'], heq, isStripped_newline⟩
  obtain ⟨core, hcore, hdialled⟩ : ∃ core, withoutSeparators raw = core ++ after ∧ dialled core = number := by
    rcases dialled_cases (withoutSeparators raw) with hsame | ⟨rest, hclean, hrest⟩
    · exact ⟨number, hsame.symm.trans heq, (plain_of_isNumber hnumber).2.1⟩
    · obtain ⟨first, digits, rfl, -⟩ := hnumber
      rw [hrest] at heq
      cases heq
      exact ⟨'0' :: '0' :: first :: digits, hclean, rfl⟩
  refine h ?_
  rw [numberOf_eq, hcore, trim_after hafter, (trim_of_dialled hdialled hnumber).1, hdialled]
  exact hnumber

theorem normalize_self {number : List Char} (h : IsNumber number) :
    normalizePhone (String.ofList number) = .ok (String.ofList number) := by
  obtain ⟨hplain, hdialled, -⟩ := plain_of_isNumber h
  have hclean : withoutSeparators (String.ofList number) = number := by
    rw [withoutSeparators, String.toList_ofList, (trim_of_dialled hdialled h).1, List.filter_eq_self]
    intro c hc
    rw [(hplain c hc).2]
    rfl
  rw [normalizePhone_eq, hclean, hdialled, if_pos (matchesE164_iff.mpr ⟨number, h, Or.inl rfl⟩)]

theorem e164_iff {number : List Char} (h : IsNumber number) :
    E164 (String.ofList number) ↔ ∀ c ∈ number.tail, c.isDigit = true := by
  obtain ⟨first, digits, rfl, hfirst, hne, -, hmin, hmax⟩ := h
  constructor
  · rintro ⟨digits', heq, hdigits, -⟩
    rw [String.toList_ofList] at heq
    cases heq
    exact hdigits
  · intro hdigits
    refine ⟨first :: digits, String.toList_ofList, hdigits, ?_, ?_, ?_⟩
    · rintro ⟨⟩
      exact hne rfl
    · rw [List.length_cons]
      omega
    · rw [List.length_cons]
      omega

theorem not_e164_line {number : List Char} (h : IsNumber number) : ¬ E164 (String.ofList (number ++ ['\n'])) := by
  obtain ⟨first, digits, rfl, -⟩ := h
  rintro ⟨digits', heq, hdigits, -⟩
  rw [String.toList_ofList] at heq
  cases heq
  have hline := hdigits '\n' (by simp)
  cases hline

/-- The pattern holds of the results and of nothing else. -/
theorem isE164_iff : isE164 raw = true ↔ ∃ source, normalizePhone source = .ok raw := by
  unfold isE164
  rw [Bool.and_eq_true, decide_eq_true_eq]
  constructor
  · rintro ⟨-, hmatches⟩
    obtain ⟨number, hnumber, heq | heq⟩ := matchesE164_iff.mp hmatches
    · refine ⟨raw, ?_⟩
      rw [← String.ofList_toList (s := raw), heq]
      exact normalize_self hnumber
    · -- a separator keeps the line end from being stripped
      refine ⟨String.ofList (raw.toList ++ ['(']), ?_⟩
      have hclean : withoutSeparators (String.ofList (raw.toList ++ ['('])) = raw.toList := by
        obtain ⟨hplain, -, -⟩ := plain_of_isNumber hnumber
        have htrim : trim isStripped (raw.toList ++ ['(']) = raw.toList ++ ['('] := by
          refine trim_eq_self ?_ ?_
          · rw [heq]
            obtain ⟨first, digits, rfl, -⟩ := hnumber
            rintro c ⟨⟩
            decide
          · rw [List.getLast?_concat]
            rintro c ⟨⟩
            decide
        have hkept : ∀ c ∈ raw.toList, (!isSeparator c) = true := by
          intro c hc
          rw [heq] at hc
          rcases List.mem_append.mp hc with hc | hc
          · rw [(hplain c hc).2]
            rfl
          · rw [List.mem_singleton.mp hc]
            rfl
        rw [withoutSeparators, String.toList_ofList, htrim, List.filter_append, List.filter_eq_self.mpr hkept]
        exact List.append_nil _
      have hdialled : dialled raw.toList = raw.toList := by
        rw [heq]
        exact dialled_append (plain_of_isNumber hnumber).2.1 hnumber
      rw [normalizePhone_eq, hclean, hdialled, if_pos hmatches, String.ofList_toList]
  · rintro ⟨source, hsource⟩
    rw [normalizePhone_eq] at hsource
    split_ifs at hsource with hmatches
    cases hsource
    rw [String.toList_ofList]
    refine ⟨?_, hmatches⟩
    intro hempty
    have hnil := congrArg String.toList hempty
    rw [String.toList_ofList] at hnil
    rw [hnil] at hmatches
    cases hmatches

theorem normalize_refused_iff (h : IsNumber (numberOf raw)) :
    normalizePhone raw = .error notInternational ↔ ¬ EndsLine raw ∧ ¬ Bare raw := by
  rcases normalize_of_number h with ⟨hbare, -, heq⟩ | ⟨hline, -, heq⟩ | ⟨hline, hbare, heq⟩
  · rw [heq]
    exact iff_of_false nofun fun hnot => hnot.2 hbare
  · rw [heq]
    exact iff_of_false nofun fun hnot => hnot.1 hline
  · exact iff_of_true heq ⟨hline, hbare⟩

theorem taken_iff (h : IsNumber (numberOf raw)) :
    normalizePhone raw = .ok (String.ofList (numberOf raw)) ↔ ¬ EndsLine raw ∧ Bare raw := by
  rcases normalize_of_number h with ⟨hbare, hline, heq⟩ | ⟨hline, -, heq⟩ | ⟨hline, hbare, heq⟩
  · exact iff_of_true heq ⟨hline, hbare⟩
  · rw [heq]
    refine iff_of_false ?_ fun hnot => hnot.1 hline
    intro hsame
    have hlist := congrArg String.toList (Except.ok.inj hsame)
    rw [String.toList_ofList, String.toList_ofList] at hlist
    have hlength := congrArg List.length hlist
    rw [List.length_append, List.length_singleton] at hlength
    omega
  · rw [heq]
    exact iff_of_false nofun fun hnot => hbare hnot.2

/-- **An input is normalised to one E.164 spelling**, exactly if it is regular. -/
theorem normalizes_iff (raw other : String) : Normalizes raw other ↔ Regular raw other := by
  by_cases h : IsNumber (numberOf raw)
  · have hother : numberOf raw = numberOf other → IsNumber (numberOf other) := fun hsame => hsame ▸ h
    rcases normalize_of_number h with ⟨hbare, hline, heq⟩ | ⟨hline, hbare, heq⟩ | ⟨hline, hbare, heq⟩
    · have hsame : numberOf raw = numberOf other →
          (normalizePhone raw = normalizePhone other ↔ ¬ EndsLine other ∧ Bare other) := by
        intro hnumber
        rw [← taken_iff (hother hnumber), heq, hnumber, eq_comm]
      constructor
      · rintro ⟨hshape, -, hpair, -⟩ -
        refine ⟨hline, fun _ => (e164_iff h).mp (hshape _ heq), ?_⟩
        intro hnumber
        obtain ⟨hno, hyes⟩ := (hsame hnumber).mp (hpair hnumber)
        exact ⟨hno, iff_of_true hbare hyes⟩
      · intro hregular
        obtain ⟨-, hascii, hpair⟩ := hregular h
        refine ⟨?_, ?_, ?_, isE164_iff⟩
        · intro value hvalue
          cases heq.symm.trans hvalue
          exact (e164_iff h).mpr (hascii hbare)
        · intro value hvalue
          cases heq.symm.trans hvalue
          exact normalize_self h
        · intro hnumber
          obtain ⟨hno, hiff⟩ := hpair hnumber
          exact (hsame hnumber).mpr ⟨hno, hiff.mp hbare⟩
    · refine iff_of_false ?_ ?_
      · intro hnormal
        exact not_e164_line h (hnormal.shape _ heq)
      · intro hregular
        exact (hregular h).1 hline
    · have hsame : numberOf raw = numberOf other →
          (normalizePhone raw = normalizePhone other ↔ ¬ EndsLine other ∧ ¬ Bare other) := by
        intro hnumber
        rw [← normalize_refused_iff (hother hnumber), heq, eq_comm]
      constructor
      · rintro ⟨-, -, hpair, -⟩ -
        refine ⟨hline, fun hyes => absurd hyes hbare, ?_⟩
        intro hnumber
        obtain ⟨hno, hnot⟩ := (hsame hnumber).mp (hpair hnumber)
        exact ⟨hno, iff_of_false hbare hnot⟩
      · intro hregular
        obtain ⟨-, -, hpair⟩ := hregular h
        refine ⟨?_, ?_, ?_, isE164_iff⟩
        · intro value hvalue
          cases heq.symm.trans hvalue
        · intro value hvalue
          cases heq.symm.trans hvalue
        · intro hnumber
          obtain ⟨hno, hiff⟩ := hpair hnumber
          exact (hsame hnumber).mpr ⟨hno, fun hyes => hbare (hiff.mpr hyes)⟩
  · have heq := normalize_of_no_number h
    refine iff_of_true ⟨?_, ?_, ?_, isE164_iff⟩ fun hnumber => absurd hnumber h
    · intro value hvalue
      cases heq.symm.trans hvalue
    · intro value hvalue
      cases heq.symm.trans hvalue
    · intro hsame
      rw [heq, normalize_of_no_number (hsame ▸ h)]

/-- A number in Arabic digits is let through, and so is one with a line end behind it, once a separator covers that. -/
theorem second_spellings :
    normalizePhone "+1٤١٥٥٥٥٢٦٧١" = .ok "+1٤١٥٥٥٥٢٦٧١" ∧
    normalizePhone "+14155552671\n(" = .ok "+14155552671\n" ∧
    normalizePhone "+14155552671\n" = .ok "+14155552671" ∧
    ¬ Normalizes "+1٤١٥٥٥٥٢٦٧١" "" ∧ ¬ Normalizes "+14155552671\n(" "" := by
  have harabic : normalizePhone "+1٤١٥٥٥٥٢٦٧١" = .ok "+1٤١٥٥٥٥٢٦٧١" := by decide +kernel
  have hline : normalizePhone "+14155552671\n(" = .ok "+14155552671\n" := by decide +kernel
  have hshort : normalizePhone "+14155552671\n" = .ok "+14155552671" := by decide +kernel
  refine ⟨harabic, hline, hshort, ?_, ?_⟩
  · intro h
    obtain ⟨digits, hdigits, hascii, -⟩ := h.shape _ harabic
    have htail : "+1٤١٥٥٥٥٢٦٧١".toList.tail = digits := congrArg List.tail hdigits
    rw [← htail] at hascii
    exact absurd (hascii '٤' (by decide +kernel)) (by decide)
  · intro h
    have hagain := h.idempotent _ hline
    rw [hshort] at hagain
    exact absurd hagain (by decide)

end Result

end Transform.Accounts
