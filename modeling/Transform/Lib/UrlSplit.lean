import Mathlib.Data.List.TakeWhile
import Transform.Lib.Bytes

/-!
# Lib.UrlSplit — a URL and its five parts, as Python's `urllib.parse` splits it

`urlsplit` cuts a URL into scheme, network location, path, query and fragment, and `urlunsplit` puts them together.
A URL that was split, and put together with another query, is split into the same parts with that query
(`urlsplit_urlunsplit`).
-/

namespace Transform.Lib

/-! ## Splitting -/

section Split

structure SplitResult where
  scheme : List Char
  netloc : List Char
  path : List Char
  query : List Char
  fragment : List Char
  deriving DecidableEq, Repr

/-- What is checked of a network location: its brackets, and that no character of it decomposes to a delimiter.  An empty
one passes. -/
structure NetlocCheck where
  ok : List Char → Bool
  empty : ok [] = true

/-- The characters stripped before a URL. -/
def isControlOrSpace (c : Char) : Bool := c.toNat ≤ 0x20

/-- The characters removed anywhere in a URL. -/
def isRemoved (c : Char) : Bool := c = '\t' ∨ c = '\r' ∨ c = '\n'

def isSchemeChar (c : Char) : Bool := c.isAlphanum || "+-.".toList.contains c

/-- The characters that end a network location. -/
def isDelimiter (c : Char) : Bool := c = '/' ∨ c = '?' ∨ c = '#'

/-- What is left of a URL before it is split. -/
def cleaned (url : List Char) : List Char := (url.dropWhile isControlOrSpace).filter fun c => !isRemoved c

/-- A text up to a character, and what follows the character. -/
def cut (x : Char) (text : List Char) : List Char × List Char :=
  (text.takeWhile (· ≠ x), (text.dropWhile (· ≠ x)).drop 1)

/-- A scheme stands before the first colon: a letter, and only scheme characters. -/
def HasScheme (url : List Char) : Prop :=
  ':' ∈ url ∧ (cut ':' url).1.head?.any Char.isAlpha = true ∧ (cut ':' url).1.all isSchemeChar = true

instance (url : List Char) : Decidable (HasScheme url) := by
  unfold HasScheme
  infer_instance

def splitScheme (url : List Char) : List Char × List Char :=
  if HasScheme url then ((cut ':' url).1.map Char.toLower, (cut ':' url).2) else ([], url)

def splitNetloc : List Char → List Char × List Char
  | '/' :: '/' :: rest => (rest.takeWhile fun c => !isDelimiter c, rest.dropWhile fun c => !isDelimiter c)
  | url => ([], url)

/-- `urlsplit`; `none` where it raises. -/
def urlsplit (check : NetlocCheck) (url : List Char) : Option SplitResult :=
  let (scheme, rest) := splitScheme (cleaned url)
  let (netloc, rest) := splitNetloc rest
  let (front, fragment) := cut '#' rest
  let (path, query) := cut '?' front
  if check.ok netloc then some ⟨scheme, netloc, path, query, fragment⟩ else none

/-- The schemes whose URLs have a network location. -/
def usesNetloc : List (List Char) :=
  ["ftp", "http", "gopher", "nntp", "telnet", "imap", "wais", "file", "mms", "https", "shttp", "snews", "prospero",
    "rtsp", "rtsps", "rtspu", "rsync", "svn", "svn+ssh", "sftp", "nfs", "git", "git+ssh", "ws", "wss",
    "itms-services"].map String.toList

/-- The path with the network location before it. -/
def SplitResult.located (parts : SplitResult) : List Char :=
  if parts.netloc ≠ [] then
    '/' :: '/' :: parts.netloc ++
      if parts.path ≠ [] ∧ parts.path.head? ≠ some '/' then '/' :: parts.path else parts.path
  else if ['/', '/'] <+: parts.path then '/' :: '/' :: parts.path
  else if parts.scheme ∈ usesNetloc ∧ (parts.path = [] ∨ parts.path.head? = some '/') then '/' :: '/' :: parts.path
  else parts.path

def SplitResult.trailer (parts : SplitResult) : List Char :=
  (if parts.query = [] then [] else '?' :: parts.query) ++ if parts.fragment = [] then [] else '#' :: parts.fragment

/-- `urlunsplit`. -/
def urlunsplit (parts : SplitResult) : List Char :=
  (if parts.scheme = [] then parts.located else parts.scheme ++ ':' :: parts.located) ++ parts.trailer

end Split

/-! ## Cutting -/

section Cut

variable {x c : Char} {text rest : List Char}

theorem cut_append (h : x ∉ text) : cut x (text ++ x :: rest) = (text, rest) := by
  have hpos : ∀ c ∈ text, decide (c ≠ x) = true := fun c hc => decide_eq_true fun heq => h (heq ▸ hc)
  have hstop : decide (x ≠ x) = false := decide_eq_false fun hne => hne rfl
  unfold cut
  rw [List.takeWhile_append_of_pos hpos, List.dropWhile_append_of_pos hpos, List.takeWhile_cons, List.dropWhile_cons]
  simp

theorem cut_of_not_mem (h : x ∉ text) : cut x text = (text, []) := by
  have hpos : ∀ c ∈ text, decide (c ≠ x) = true := fun c hc => decide_eq_true fun heq => h (heq ▸ hc)
  unfold cut
  rw [List.takeWhile_eq_self_iff.2 hpos, List.dropWhile_eq_nil_iff.2 hpos]
  rfl

theorem not_mem_cut : x ∉ (cut x text).1 := by
  intro hx
  have hne := List.mem_takeWhile_imp hx
  exact of_decide_eq_true hne rfl

/-- A text is its part before the character, alone or with the character and the part after it. -/
theorem cut_eq (x : Char) (text : List Char) :
    (x ∉ text ∧ cut x text = (text, [])) ∨ text = (cut x text).1 ++ x :: (cut x text).2 := by
  by_cases h : x ∈ text
  · right
    obtain ⟨before, after, rfl, hbefore⟩ := List.eq_append_cons_of_mem h
    rw [cut_append hbefore]
  · exact .inl ⟨h, cut_of_not_mem h⟩

/-- What is cut off at the end begins with the character. -/
theorem cut_prefix (x : Char) (text : List Char) : ∃ tail, text = (cut x text).1 ++ tail ∧
    ∀ d ∈ tail.head?, d = x := by
  rcases cut_eq x text with ⟨-, h⟩ | h
  · rw [h]
    exact ⟨[], (List.append_nil _).symm, nofun⟩
  · refine ⟨_, h, fun d hd => ?_⟩
    cases hd
    rfl

theorem mem_of_mem_cut (h : c ∈ (cut x text).1 ∨ c ∈ (cut x text).2) : c ∈ text := by
  rcases h with h | h
  · exact (List.takeWhile_sublist _).subset h
  · exact (List.dropWhile_sublist _).subset (List.mem_of_mem_drop h)

end Cut

/-! ## What splitting gives -/

section WellSplit

/-- What holds of the parts of any URL. -/
structure SplitResult.Well (parts : SplitResult) : Prop where
  scheme : parts.scheme = [] ∨ parts.scheme.head?.any Char.isAlpha = true ∧ parts.scheme.all isSchemeChar = true ∧
    parts.scheme.map Char.toLower = parts.scheme
  netloc : ∀ c ∈ parts.netloc, isDelimiter c = false
  path : '?' ∉ parts.path ∧ '#' ∉ parts.path
  rooted : parts.netloc ≠ [] → parts.path = [] ∨ parts.path.head? = some '/'
  bare : parts.scheme = [] → parts.netloc = [] → ¬ HasScheme parts.path ∧ ∀ c ∈ parts.path.head?, isControlOrSpace c = false
  kept : ∀ c, c ∈ parts.scheme ∨ c ∈ parts.netloc ∨ c ∈ parts.path ∨ c ∈ parts.fragment → isRemoved c = false

variable {check : NetlocCheck} {url text tail : List Char} {parts : SplitResult}

theorem removed_isControl {c : Char} (h : isRemoved c = true) : isControlOrSpace c = true := by
  rcases of_decide_eq_true h with rfl | rfl | rfl
  · decide
  · decide
  · decide

theorem ascii_of_alpha {c : Char} (h : c.isAlpha = true) : c.toNat < 128 := by
  have hc : c.toNat = c.val.toNat := rfl
  rcases Bool.or_eq_true_iff.1 h with hupper | hlower
  · have hrange : c.val ≥ 'A'.val ∧ c.val ≤ 'Z'.val := of_decide_eq_true hupper
    have h90 : c.val.toNat ≤ 90 := UInt32.le_iff_toNat_le.1 hrange.2
    omega
  · have hrange : (decide (c.val ≥ 'a'.val) && decide (c.val ≤ 'z'.val)) = true := hlower
    have hle : c.val ≤ 'z'.val := of_decide_eq_true (Bool.and_eq_true_iff.1 hrange).2
    have h122 : c.val.toNat ≤ 122 := UInt32.le_iff_toNat_le.1 hle
    omega

theorem ascii_of_schemeChar {c : Char} (h : isSchemeChar c = true) : c.toNat < 128 := by
  rcases Bool.or_eq_true_iff.1 h with h | h
  · rcases Bool.or_eq_true_iff.1 h with h | h
    · exact ascii_of_alpha h
    · simp only [Char.isDigit, Bool.and_eq_true, decide_eq_true_eq, UInt32.le_iff_toNat_le, ge_iff_le] at h
      have hc : c.toNat = c.val.toNat := rfl
      have h57 : '9'.val.toNat = 57 := rfl
      omega
  · rcases List.mem_cons.1 (List.contains_iff_mem.1 h) with rfl | h
    · decide
    rcases List.mem_cons.1 h with rfl | h
    · decide
    rcases List.mem_singleton.1 h with rfl
    decide

theorem forall_ascii {P : Char → Prop} (h : ∀ n < 128, P (Char.ofNat n)) {c : Char} (hc : c.toNat < 128) : P c := by
  have hP := h c.toNat hc
  rwa [Char.ofNat_toNat] at hP

theorem isSchemeChar_plain {c : Char} (h : isSchemeChar c = true) : isControlOrSpace c = false ∧
    isSchemeChar c.toLower = true ∧ c.toLower.toLower = c.toLower := by
  have hall : ∀ n < 128, isSchemeChar (Char.ofNat n) = true → isControlOrSpace (Char.ofNat n) = false ∧
      isSchemeChar (Char.ofNat n).toLower = true ∧ (Char.ofNat n).toLower.toLower = (Char.ofNat n).toLower := by decide
  exact forall_ascii (P := fun c => isSchemeChar c = true → isControlOrSpace c = false ∧
    isSchemeChar c.toLower = true ∧ c.toLower.toLower = c.toLower) hall (ascii_of_schemeChar h) h

theorem isAlpha_toLower {c : Char} (h : c.isAlpha = true) : c.toLower.isAlpha = true := by
  have hall : ∀ n < 128, (Char.ofNat n).isAlpha = true → (Char.ofNat n).toLower.isAlpha = true := by decide
  exact forall_ascii (P := fun c => c.isAlpha = true → c.toLower.isAlpha = true) hall (ascii_of_alpha h) h

theorem hasScheme_append (h : HasScheme text) : HasScheme (text ++ tail) := by
  obtain ⟨hcolon, hrest⟩ := h
  obtain ⟨before, after, rfl, hbefore⟩ := List.eq_append_cons_of_mem hcolon
  rw [cut_append hbefore] at hrest
  refine ⟨List.mem_append_left _ hcolon, ?_⟩
  rw [List.append_assoc, List.cons_append, cut_append hbefore]
  exact hrest

theorem not_hasScheme_append (h : ¬ HasScheme text) (htail : ∀ c ∈ tail.head?, c = '?' ∨ c = '#') :
    ¬ HasScheme (text ++ tail) := by
  rintro ⟨hcolon, halpha, hall⟩
  by_cases hmem : ':' ∈ text
  · obtain ⟨before, after, rfl, hbefore⟩ := List.eq_append_cons_of_mem hmem
    rw [List.append_assoc, List.cons_append, cut_append hbefore] at halpha hall
    refine h ⟨hmem, ?_⟩
    rw [cut_append hbefore]
    exact ⟨halpha, hall⟩
  · -- the colon is in the tail, whose first character no scheme has
    rcases tail with _ | ⟨d, tail⟩
    · rw [List.append_nil] at hcolon
      exact hmem hcolon
    · obtain ⟨before, after, htext, hbefore⟩ := List.eq_append_cons_of_mem hcolon
      have hd : d ∈ before := by
        rcases List.append_eq_append_iff.1 htext with ⟨more, hbeforeEq, hmore⟩ | ⟨more, rfl, hmore⟩
        · rcases more with _ | ⟨e, more⟩
          · rw [List.nil_append] at hmore
            obtain ⟨rfl, -⟩ := List.cons.inj hmore
            rcases htail _ rfl with hq | hq <;> exact absurd hq (by decide)
          · obtain ⟨rfl, -⟩ := List.cons.inj hmore
            rw [hbeforeEq]
            exact List.mem_append_right _ (List.mem_cons_self ..)
        · rcases more with _ | ⟨e, more⟩
          · rw [List.nil_append] at hmore
            obtain ⟨rfl, -⟩ := List.cons.inj hmore
            rcases htail _ rfl with hq | hq <;> exact absurd hq (by decide)
          · obtain ⟨rfl, -⟩ := List.cons.inj hmore
            exact absurd (List.mem_append_right _ (List.mem_cons_self ..)) hmem
      rw [htext, cut_append hbefore] at hall
      have hchar := List.all_eq_true.1 hall d hd
      rcases htail d rfl with rfl | rfl
      · exact absurd hchar (by decide)
      · exact absurd hchar (by decide)

theorem isRemoved_of_cleaned {c : Char} (h : c ∈ cleaned url) : isRemoved c = false := by
  have hkeep := (List.mem_filter.1 h).2
  simpa using hkeep

theorem head?_cleaned : ∀ c ∈ (cleaned url).head?, isControlOrSpace c = false := by
  intro c hc
  unfold cleaned at hc
  rcases hstart : url.dropWhile isControlOrSpace with _ | ⟨d, rest⟩
  · rw [hstart] at hc
    cases hc
  · have hd : isControlOrSpace d = false := by
      have hhead := List.head?_dropWhile_not isControlOrSpace url
      rw [hstart] at hhead
      simpa using hhead
    have hkeep : isRemoved d = false := by
      rcases hr : isRemoved d with _ | _
      · rfl
      · rw [removed_isControl hr] at hd
        cases hd
    rw [hstart, List.filter_cons_of_pos (by simp [hkeep])] at hc
    cases hc
    exact hd

theorem splitScheme_eq (url : List Char) :
    (¬ HasScheme url ∧ splitScheme url = ([], url)) ∨
      ∃ scheme rest, url = scheme ++ ':' :: rest ∧ splitScheme url = (scheme.map Char.toLower, rest) ∧
        scheme.head?.any Char.isAlpha = true ∧ scheme.all isSchemeChar = true := by
  by_cases h : HasScheme url
  · have hsplit := (cut_eq ':' url).resolve_left fun hnot => hnot.1 h.1
    exact .inr ⟨_, _, hsplit, if_pos h, h.2⟩
  · exact .inl ⟨h, if_neg h⟩

theorem splitNetloc_eq (url : List Char) :
    splitNetloc url = ([], url) ∨
      ∃ netloc rest, url = '/' :: '/' :: (netloc ++ rest) ∧ splitNetloc url = (netloc, rest) ∧
        (∀ c ∈ netloc, isDelimiter c = false) ∧ ∀ c ∈ rest.head?, isDelimiter c = true := by
  unfold splitNetloc
  split
  · rename_i rest
    refine .inr ⟨_, _, ?_, rfl, fun c hc => ?_, fun c hc => ?_⟩
    · rw [List.takeWhile_append_dropWhile]
    · simpa using List.mem_takeWhile_imp hc
    · have hhead := List.head?_dropWhile_not (fun c => !isDelimiter c) rest
      rw [hc] at hhead
      simpa using hhead
  · exact .inl rfl

theorem path_prefix (rest : List Char) : ∃ tail, rest = (cut '?' (cut '#' rest).1).1 ++ tail ∧
    ∀ c ∈ tail.head?, c = '?' ∨ c = '#' := by
  obtain ⟨fragment, hfront, hfragment⟩ := cut_prefix '#' rest
  obtain ⟨query, hpath, hquery⟩ := cut_prefix '?' (cut '#' rest).1
  refine ⟨query ++ fragment, ?_, fun c hc => ?_⟩
  · rw [← List.append_assoc, ← hpath]
    exact hfront
  · rcases query with _ | ⟨d, query⟩
    · exact .inr (hfragment c hc)
    · exact .inl (hquery c hc)

/-- A path after a network location is empty or begins with a slash. -/
theorem path_rooted {rest : List Char} (h : ∀ c ∈ rest.head?, isDelimiter c = true) :
    (cut '?' (cut '#' rest).1).1 = [] ∨ (cut '?' (cut '#' rest).1).1.head? = some '/' := by
  obtain ⟨tail, hrest, -⟩ := path_prefix rest
  have hquery : '?' ∉ (cut '?' (cut '#' rest).1).1 := not_mem_cut
  have hfragment : '#' ∉ (cut '?' (cut '#' rest).1).1 := fun hmem => not_mem_cut (mem_of_mem_cut (.inl hmem))
  rcases hpath : (cut '?' (cut '#' rest).1).1 with _ | ⟨c, path⟩
  · exact .inl rfl
  · right
    rw [hpath] at hrest hquery hfragment
    have hdelimiter : isDelimiter c = true := h c (by rw [hrest]; rfl)
    rcases of_decide_eq_true hdelimiter with rfl | rfl | rfl
    · rfl
    · exact absurd (List.mem_cons_self ..) hquery
    · exact absurd (List.mem_cons_self ..) hfragment

theorem not_hasScheme_slash (h : text = [] ∨ text.head? = some '/') : ¬ HasScheme text := by
  rintro ⟨hcolon, halpha, -⟩
  rcases h with rfl | hslash
  · exact absurd hcolon List.not_mem_nil
  obtain ⟨before, after, rfl, hbefore⟩ := List.eq_append_cons_of_mem hcolon
  rw [cut_append hbefore] at halpha
  rcases before with _ | ⟨c, before⟩
  · cases halpha
  · cases hslash
    have hslash : '/'.isAlpha = true := halpha
    exact absurd hslash (by decide)

/-- **The parts of a URL are well formed.** -/
theorem well_urlsplit (h : urlsplit check url = some parts) : parts.Well := by
  unfold urlsplit at h
  rcases hscheme : splitScheme (cleaned url) with ⟨scheme, rest⟩
  rcases hnetloc : splitNetloc rest with ⟨netloc, located⟩
  simp only [hscheme, hnetloc] at h
  split_ifs at h with hok
  cases h
  have hscheme' := splitScheme_eq (cleaned url)
  have hnetloc' := splitNetloc_eq rest
  rw [hscheme] at hscheme'
  rw [hnetloc] at hnetloc'
  have hrest : ∀ c ∈ rest, c ∈ cleaned url := by
    intro c hc
    rcases hscheme' with ⟨-, heq⟩ | ⟨s, r, hurl, heq, -⟩
    · cases heq
      exact hc
    · cases heq
      rw [hurl]
      exact List.mem_append_right _ (List.mem_cons_of_mem _ hc)
  have hlocated : ∀ c, c ∈ netloc ∨ c ∈ located → c ∈ rest := by
    intro c hc
    rcases hnetloc' with heq | ⟨n, r, hurl, heq, -, -⟩
    · cases heq
      exact hc.resolve_left List.not_mem_nil
    · cases heq
      rw [hurl]
      exact List.mem_cons_of_mem _ (List.mem_cons_of_mem _ (List.mem_append.2 hc))
  have hpath : ∀ c ∈ (cut '?' (cut '#' located).1).1, c ∈ located := fun c hc =>
    mem_of_mem_cut (.inl (mem_of_mem_cut (.inl hc)))
  have hschemeChars : ∀ c ∈ scheme, isSchemeChar c = true := by
    intro c hc
    rcases hscheme' with ⟨-, heq⟩ | ⟨s, r, -, heq, -, hall⟩
    · cases heq
      exact absurd hc List.not_mem_nil
    · cases heq
      obtain ⟨d, hd, rfl⟩ := List.mem_map.1 hc
      exact (isSchemeChar_plain (List.all_eq_true.1 hall d hd)).2.1
  constructor
  · rcases hscheme' with ⟨-, heq⟩ | ⟨s, r, -, heq, halpha, hall⟩
    · cases heq
      exact .inl rfl
    · cases heq
      have hplain : ∀ c ∈ s, isSchemeChar c = true := List.all_eq_true.1 hall
      refine .inr ⟨?_, List.all_eq_true.2 hschemeChars, ?_⟩
      · obtain ⟨c, hc, hca⟩ := (Option.any_eq_true _ _).1 halpha
        rw [List.head?_map, hc]
        exact isAlpha_toLower hca
      · rw [List.map_map]
        exact List.map_congr_left fun c hc => (isSchemeChar_plain (hplain c hc)).2.2
  · rcases hnetloc' with heq | ⟨n, r, -, heq, hn, -⟩
    · cases heq
      exact nofun
    · cases heq
      exact hn
  · exact ⟨not_mem_cut, fun hmem => not_mem_cut (mem_of_mem_cut (.inl hmem))⟩
  · intro hne
    rcases hnetloc' with heq | ⟨n, r, -, heq, -, hr⟩
    · cases heq
      exact absurd rfl hne
    · cases heq
      exact path_rooted hr
  · intro hnoScheme hnoNetloc
    rcases hscheme' with ⟨hno, heq⟩ | ⟨s, r, -, heq, halpha, -⟩
    · cases heq
      rcases hnetloc' with heq | ⟨n, r, -, heq, -, hr⟩
      · cases heq
        obtain ⟨tail, hurl, -⟩ := path_prefix (cleaned url)
        have hhead : ∀ c ∈ (cleaned url).head?, isControlOrSpace c = false := head?_cleaned
        refine ⟨fun hp => hno ?_, fun c hc => hhead c ?_⟩
        · rw [hurl]
          exact hasScheme_append hp
        · rw [hurl, List.head?_append, hc]
          rfl
      · cases heq
        have hpath := path_rooted hr
        refine ⟨not_hasScheme_slash hpath, fun c hc => ?_⟩
        rcases hpath with hnil | hslash
        · rw [hnil] at hc
          cases hc
        · rw [hslash] at hc
          cases hc
          decide
    · cases heq
      rw [List.map_eq_nil_iff.1 hnoScheme] at halpha
      cases halpha
  · rintro c (hc | hc | hc | hc)
    · rcases hr : isRemoved c with _ | _
      · rfl
      · have hplain := (isSchemeChar_plain (hschemeChars c hc)).1
        rw [removed_isControl hr] at hplain
        cases hplain
    · exact isRemoved_of_cleaned (hrest c (hlocated c (.inl hc)))
    · exact isRemoved_of_cleaned (hrest c (hlocated c (.inr (hpath c hc))))
    · exact isRemoved_of_cleaned (hrest c (hlocated c (.inr (mem_of_mem_cut (.inr hc)))))

theorem ok_urlsplit (h : urlsplit check url = some parts) : check.ok parts.netloc = true := by
  unfold urlsplit at h
  rcases hscheme : splitScheme (cleaned url) with ⟨scheme, rest⟩
  rcases hnetloc : splitNetloc rest with ⟨netloc, located⟩
  simp only [hscheme, hnetloc] at h
  split_ifs at h with hok
  cases h
  exact hok

end WellSplit

/-! ## Putting together and splitting again -/

section Unsplit

variable {check : NetlocCheck} {url : List Char} {parts : SplitResult}

/-- The path stands after two slashes and the location, or alone. -/
theorem located_cases (hwell : parts.Well) :
    (parts.located = '/' :: '/' :: (parts.netloc ++ parts.path) ∧ (parts.path = [] ∨ parts.path.head? = some '/')) ∨
      parts.netloc = [] ∧ parts.located = parts.path ∧ ¬ ['/', '/'] <+: parts.path := by
  unfold SplitResult.located
  by_cases hnetloc : parts.netloc = []
  · rw [if_neg fun hne => hne hnetloc, hnetloc]
    by_cases hslashes : ['/', '/'] <+: parts.path
    · obtain ⟨rest, hrest⟩ := hslashes
      rw [if_pos ⟨rest, hrest⟩, ← hrest]
      exact .inl ⟨rfl, .inr rfl⟩
    · rw [if_neg hslashes]
      split_ifs with huses
      · exact .inl ⟨rfl, huses.2⟩
      · exact .inr ⟨rfl, rfl, hslashes⟩
  · have hrooted := hwell.rooted hnetloc
    have hnot : ¬ (parts.path ≠ [] ∧ parts.path.head? ≠ some '/') := fun h => hrooted.elim h.1 h.2
    rw [if_pos hnetloc, if_neg hnot]
    exact .inl ⟨rfl, hrooted⟩

theorem head?_trailer : ∀ c ∈ parts.trailer.head?, c = '?' ∨ c = '#' := by
  intro c hc
  unfold SplitResult.trailer at hc
  by_cases hquery : parts.query = []
  · rw [if_pos hquery, List.nil_append] at hc
    by_cases hfragment : parts.fragment = []
    · rw [if_pos hfragment] at hc
      cases hc
    · rw [if_neg hfragment] at hc
      cases hc
      exact .inr rfl
  · rw [if_neg hquery] at hc
    cases hc
    exact .inl rfl

theorem splitNetloc_slashes {netloc rest : List Char} (hnetloc : ∀ c ∈ netloc, isDelimiter c = false)
    (hrest : ∀ c ∈ rest.head?, isDelimiter c = true) : splitNetloc ('/' :: '/' :: (netloc ++ rest)) = (netloc, rest) := by
  have hpos : ∀ c ∈ netloc, (!isDelimiter c) = true := fun c hc => by rw [hnetloc c hc, Bool.not_false]
  have hstop : rest.takeWhile (fun c => !isDelimiter c) = [] ∧ rest.dropWhile (fun c => !isDelimiter c) = rest := by
    rcases rest with _ | ⟨c, rest⟩
    · exact ⟨rfl, rfl⟩
    · have hc : ¬ (!isDelimiter c) = true := by simp [hrest c rfl]
      exact ⟨List.takeWhile_cons_of_neg hc, List.dropWhile_cons_of_neg hc⟩
  rw [splitNetloc, List.takeWhile_append_of_pos hpos, List.dropWhile_append_of_pos hpos, hstop.1, hstop.2,
    List.append_nil]

theorem splitNetloc_located (hwell : parts.Well) :
    splitNetloc (parts.located ++ parts.trailer) = (parts.netloc, parts.path ++ parts.trailer) := by
  have htrailer : ∀ c ∈ parts.trailer.head?, c = '?' ∨ c = '#' := head?_trailer
  rcases located_cases hwell with ⟨hlocated, hrooted⟩ | ⟨hnetloc, hlocated, hslashes⟩
  · rw [hlocated, List.cons_append, List.cons_append, List.append_assoc]
    refine splitNetloc_slashes hwell.netloc fun c hc => ?_
    rcases hrooted with hnil | hslash
    · rw [hnil, List.nil_append] at hc
      rcases htrailer c hc with rfl | rfl
      · decide
      · decide
    · rw [List.head?_append, hslash] at hc
      cases hc
      decide
  · rw [hlocated, hnetloc]
    have hnot : ¬ ['/', '/'] <+: parts.path ++ parts.trailer := by
      rintro ⟨rest, hrest⟩
      have hslash : '/' ∉ parts.trailer.head? := by
        intro hc
        rcases htrailer '/' hc with h | h
        · exact absurd h (by decide)
        · exact absurd h (by decide)
      rcases hpath : parts.path with _ | ⟨c, path⟩
      · rw [hpath, List.nil_append] at hrest
        exact hslash (by rw [← hrest]; rfl)
      · rw [hpath] at hrest
        obtain ⟨rfl, htail⟩ : '/' = c ∧ '/' :: rest = path ++ parts.trailer := List.cons.inj hrest
        rcases path with _ | ⟨d, path⟩
        · rw [List.nil_append] at htail
          exact hslash (by rw [← htail]; rfl)
        · obtain ⟨rfl, -⟩ : '/' = d ∧ rest = path ++ parts.trailer := List.cons.inj htail
          exact hslashes ⟨path, hpath.symm⟩
    rcases splitNetloc_eq (parts.path ++ parts.trailer) with h | ⟨n, r, hurl, -⟩
    · exact h
    · exact absurd ⟨_, hurl.symm⟩ hnot

theorem cut_trailer (hwell : parts.Well) (hquery : '#' ∉ parts.query) :
    cut '#' (parts.path ++ parts.trailer) =
        (parts.path ++ (if parts.query = [] then [] else '?' :: parts.query), parts.fragment) ∧
      cut '?' (parts.path ++ (if parts.query = [] then [] else '?' :: parts.query)) = (parts.path, parts.query) := by
  have hfront : '#' ∉ parts.path ++ (if parts.query = [] then [] else '?' :: parts.query) := by
    intro hmem
    rcases List.mem_append.1 hmem with hmem | hmem
    · exact hwell.path.2 hmem
    · split_ifs at hmem
      · exact absurd hmem List.not_mem_nil
      · rcases List.mem_cons.1 hmem with h | hmem
        · exact absurd h (by decide)
        · exact hquery hmem
  constructor
  · rw [SplitResult.trailer, ← List.append_assoc]
    by_cases hfragment : parts.fragment = []
    · rw [if_pos hfragment, List.append_nil, cut_of_not_mem hfront, hfragment]
    · rw [if_neg hfragment, cut_append hfront]
  · by_cases hempty : parts.query = []
    · rw [if_pos hempty, List.append_nil, cut_of_not_mem hwell.path.1, hempty]
    · rw [if_neg hempty, cut_append hwell.path.1]

theorem splitScheme_urlunsplit (hwell : parts.Well) :
    splitScheme (urlunsplit parts) = (parts.scheme, parts.located ++ parts.trailer) := by
  unfold urlunsplit
  by_cases hscheme : parts.scheme = []
  · rw [if_pos hscheme, hscheme]
    refine if_neg ?_
    rcases located_cases hwell with ⟨hlocated, -⟩ | ⟨hnetloc, hlocated, -⟩
    · rw [hlocated]
      exact not_hasScheme_slash (.inr rfl)
    · rw [hlocated]
      exact not_hasScheme_append (hwell.bare hscheme hnetloc).1 head?_trailer
  · obtain ⟨halpha, hall, hlower⟩ := hwell.scheme.resolve_left hscheme
    have hcolon : ':' ∉ parts.scheme := fun hmem => absurd (List.all_eq_true.1 hall ':' hmem) (by decide)
    rw [if_neg hscheme, List.append_assoc, List.cons_append]
    have hcut : cut ':' (parts.scheme ++ ':' :: (parts.located ++ parts.trailer)) =
        (parts.scheme, parts.located ++ parts.trailer) := cut_append hcolon
    have hhas : HasScheme (parts.scheme ++ ':' :: (parts.located ++ parts.trailer)) := by
      refine ⟨List.mem_append_right _ (List.mem_cons_self ..), ?_⟩
      rw [hcut]
      exact ⟨halpha, hall⟩
    rw [splitScheme, if_pos hhas, hcut, hlower]

theorem cleaned_urlunsplit (hwell : parts.Well) (hquery : ∀ c ∈ parts.query, isRemoved c = false) :
    cleaned (urlunsplit parts) = urlunsplit parts := by
  have hhead : ∀ c ∈ (urlunsplit parts).head?, isControlOrSpace c = false := by
    intro c hc
    unfold urlunsplit at hc
    by_cases hscheme : parts.scheme = []
    · rw [if_pos hscheme] at hc
      rcases located_cases hwell with ⟨hlocated, -⟩ | ⟨hnetloc, hlocated, -⟩
      · rw [hlocated] at hc
        cases hc
        decide
      · rw [hlocated, List.head?_append] at hc
        rcases hpath : parts.path.head? with _ | d
        · rw [hpath] at hc
          rcases head?_trailer c hc with rfl | rfl
          · decide
          · decide
        · rw [hpath] at hc
          cases hc
          exact (hwell.bare hscheme hnetloc).2 c hpath
    · obtain ⟨-, hall, -⟩ := hwell.scheme.resolve_left hscheme
      rw [if_neg hscheme] at hc
      rcases hparts : parts.scheme with _ | ⟨d, scheme⟩
      · exact absurd hparts hscheme
      · rw [hparts] at hc hall
        cases hc
        exact (isSchemeChar_plain (List.all_eq_true.1 hall c (List.mem_cons_self ..))).1
  have hlocated : ∀ c ∈ parts.located, isRemoved c = false := by
    intro c hc
    rcases located_cases hwell with ⟨hlocated, -⟩ | ⟨-, hlocated, -⟩
    · rw [hlocated] at hc
      rcases List.mem_cons.1 hc with rfl | hc
      · decide
      rcases List.mem_cons.1 hc with rfl | hc
      · decide
      rcases List.mem_append.1 hc with hc | hc
      · exact hwell.kept c (.inr (.inl hc))
      · exact hwell.kept c (.inr (.inr (.inl hc)))
    · rw [hlocated] at hc
      exact hwell.kept c (.inr (.inr (.inl hc)))
  have htrailer : ∀ c ∈ parts.trailer, isRemoved c = false := by
    intro c hc
    rcases List.mem_append.1 hc with hc | hc
    · split_ifs at hc
      · exact absurd hc List.not_mem_nil
      rcases List.mem_cons.1 hc with rfl | hc
      · decide
      · exact hquery c hc
    · split_ifs at hc
      · exact absurd hc List.not_mem_nil
      rcases List.mem_cons.1 hc with rfl | hc
      · decide
      · exact hwell.kept c (.inr (.inr (.inr hc)))
  have hall : ∀ c ∈ urlunsplit parts, isRemoved c = false := by
    intro c hc
    rcases List.mem_append.1 hc with hc | hc
    · split_ifs at hc
      · exact hlocated c hc
      rcases List.mem_append.1 hc with hc | hc
      · exact hwell.kept c (.inl hc)
      rcases List.mem_cons.1 hc with rfl | hc
      · decide
      · exact hlocated c hc
    · exact htrailer c hc
  unfold cleaned
  rw [List.filter_eq_self.2]
  · rcases hurl : urlunsplit parts with _ | ⟨c, rest⟩
    · rfl
    · refine List.dropWhile_cons_of_neg ?_
      simp [hhead c (by rw [hurl]; rfl)]
  · intro c hc
    simp [hall c ((List.dropWhile_sublist _).subset hc)]

theorem urlsplit_of_well (hwell : parts.Well) (hok : check.ok parts.netloc = true)
    (hquery : ∀ c ∈ parts.query, c ≠ '#' ∧ isRemoved c = false) : urlsplit check (urlunsplit parts) = some parts := by
  have hcut := cut_trailer hwell fun hmem => (hquery _ hmem).1 rfl
  unfold urlsplit
  rw [cleaned_urlunsplit hwell fun c hc => (hquery c hc).2, splitScheme_urlunsplit hwell]
  simp only [splitNetloc_located hwell, hcut.1, hcut.2, if_pos hok]

/-- **A URL that was split, put together with another query, is split into the same parts with that query.** -/
theorem urlsplit_urlunsplit (h : urlsplit check url = some parts) {query : List Char}
    (hquery : ∀ c ∈ query, c ≠ '#' ∧ isRemoved c = false) :
    urlsplit check (urlunsplit { parts with query := query }) = some { parts with query := query } := by
  obtain ⟨hscheme, hnetloc, hpath, hrooted, hbare, hkept⟩ := well_urlsplit h
  have hwell : SplitResult.Well { parts with query := query } := ⟨hscheme, hnetloc, hpath, hrooted, hbare, hkept⟩
  have hok : check.ok parts.netloc = true := ok_urlsplit h
  exact urlsplit_of_well hwell hok hquery

end Unsplit

end Transform.Lib
