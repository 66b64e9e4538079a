import Transform.Lib.Bytes

/-!
# Lib.Aead — authenticated encryption as a parameter

An `Aead` seals a text under a key, a nonce and associated data, and opens what was so sealed.

* `Lawful`: what was sealed opens, and a sealed text is longer by the tag.
* `Unforged`: of the parts of some data, only those open that were produced.
* `Aead.ofAnswers`: one that agrees with a table of known answers, for runs on fixed inputs.
-/

namespace Transform.Lib

/-- Sealing and opening under a key, a nonce and associated data. -/
structure Aead where
  encrypt : (key nonce aad plain : Bytes) → Bytes
  decrypt : (key nonce aad cipher : Bytes) → Option Bytes

def tagLength : ℕ := 16

namespace Aead

/-- What was sealed opens, and carries a tag; what opens is longer than its text by the tag. -/
structure Lawful (A : Aead) : Prop where
  decrypt_encrypt : ∀ key nonce aad plain, A.decrypt key nonce aad (A.encrypt key nonce aad plain) = some plain
  length_encrypt : ∀ key nonce aad plain, (A.encrypt key nonce aad plain).length = plain.length + tagLength
  length_decrypt : ∀ key nonce aad cipher plain, A.decrypt key nonce aad cipher = some plain →
    cipher.length = plain.length + tagLength

/-- A key opens nothing that another one sealed. -/
def Rejects (A : Aead) (key other : Bytes) : Prop :=
  ∀ nonce aad plain, A.decrypt other nonce aad (A.encrypt key nonce aad plain) = none

/-- Under the keys, the parts of the data that open are among what was produced. -/
def Unforged (A : Aead) (keys : List Bytes) (produced : (key nonce aad cipher : Bytes) → Prop) (data : Bytes) : Prop :=
  ∀ key ∈ keys, ∀ nonce aad cipher plain, cipher <:+: data → A.decrypt key nonce aad cipher = some plain →
    produced key nonce aad cipher

end Aead

/-! ## Known answers -/

section KnownAnswers

/-- A text and what it is sealed as. -/
structure KnownAnswer where
  key : Bytes
  nonce : Bytes
  aad : Bytes
  plain : Bytes
  cipher : Bytes
  deriving DecidableEq

/-- The answer is for the key, the nonce and the associated data. -/
def KnownAnswer.isFor (key nonce aad : Bytes) (a : KnownAnswer) : Prop := a.key = key ∧ a.nonce = nonce ∧ a.aad = aad

instance (key nonce aad : Bytes) (a : KnownAnswer) : Decidable (a.isFor key nonce aad) :=
  inferInstanceAs (Decidable (a.key = key ∧ a.nonce = nonce ∧ a.aad = aad))

/-- The mark of a key, in place of a tag that is not known. -/
def keyMark (key : Bytes) : Bytes := (key ++ List.replicate tagLength 0).take tagLength

theorem length_keyMark (key : Bytes) : (keyMark key).length = tagLength := by
  unfold keyMark
  rw [List.length_take, List.length_append, List.length_replicate]
  omega

/-- The known answers, and the text with the key's mark where none is known. -/
def Aead.ofAnswers (answers : List KnownAnswer) : Aead where
  encrypt key nonce aad plain :=
    match answers.find? fun a => a.isFor key nonce aad ∧ a.plain = plain with
    | some a => a.cipher
    | none => plain ++ keyMark key
  decrypt key nonce aad cipher :=
    match answers.find? fun a => a.isFor key nonce aad ∧ a.cipher = cipher with
    | some a => some a.plain
    | none =>
      let plain := cipher.take (cipher.length - tagLength)
      if cipher = plain ++ keyMark key ∧ ¬ answers.any fun a => a.isFor key nonce aad ∧ a.plain = plain then some plain
      else none

/-- The answers are told apart by their sealed texts, carry tags, and none ends in the mark of one of the keys, which
include their own. -/
structure AnswersOk (keys : List Bytes) (answers : List KnownAnswer) : Prop where
  inj : ∀ a ∈ answers, ∀ b ∈ answers, a.cipher = b.cipher → a = b
  length : ∀ a ∈ answers, a.cipher.length = a.plain.length + tagLength
  known : ∀ a ∈ answers, a.key ∈ keys
  unmarked : ∀ a ∈ answers, ∀ key ∈ keys, ¬ keyMark key <:+ a.cipher

theorem ofAnswers_encrypt (answers : List KnownAnswer) (key nonce aad plain : Bytes) :
    (∃ a ∈ answers, a.isFor key nonce aad ∧ a.plain = plain ∧
        (Aead.ofAnswers answers).encrypt key nonce aad plain = a.cipher) ∨
      (¬ answers.any fun a => a.isFor key nonce aad ∧ a.plain = plain) ∧
        (Aead.ofAnswers answers).encrypt key nonce aad plain = plain ++ keyMark key := by
  rcases h : answers.find? fun a => a.isFor key nonce aad ∧ a.plain = plain with _ | a
  · refine .inr ⟨?_, by simp only [Aead.ofAnswers, h]⟩
    rw [List.find?_eq_none] at h
    simpa using h
  · have hmem := List.mem_of_find?_eq_some h
    obtain ⟨hfor, hplain⟩ : a.isFor key nonce aad ∧ a.plain = plain := by simpa using List.find?_some h
    exact .inl ⟨a, hmem, hfor, hplain, by simp only [Aead.ofAnswers, h]⟩

variable {keys : List Bytes} {answers : List KnownAnswer} {key nonce aad : Bytes}

theorem ofAnswers_decrypt {cipher plain : Bytes} (h : (Aead.ofAnswers answers).decrypt key nonce aad cipher = some plain) :
    (∃ a ∈ answers, a.isFor key nonce aad ∧ a.cipher = cipher ∧ a.plain = plain) ∨ cipher = plain ++ keyMark key := by
  simp only [Aead.ofAnswers] at h
  split at h
  · rename_i a ha
    obtain ⟨hfor, hcipher⟩ : a.isFor key nonce aad ∧ a.cipher = cipher := by simpa using List.find?_some ha
    cases h
    exact .inl ⟨a, List.mem_of_find?_eq_some ha, hfor, hcipher, rfl⟩
  · split_ifs at h with hmark
    cases h
    exact .inr hmark.1

theorem ofAnswers_lawful (h : AnswersOk keys answers) : (Aead.ofAnswers answers).Lawful where
  decrypt_encrypt key nonce aad plain := by
    rcases ofAnswers_encrypt answers key nonce aad plain with
      ⟨a, ha, hfor, rfl, hcipher⟩ | ⟨hany, hcipher⟩
    · rw [hcipher]
      rcases hfind : answers.find? fun b => b.isFor key nonce aad ∧ b.cipher = a.cipher with _ | b
      · rw [List.find?_eq_none] at hfind
        exact absurd (by simpa using hfor) (hfind a ha)
      · obtain ⟨-, hb⟩ : b.isFor key nonce aad ∧ b.cipher = a.cipher := by simpa using List.find?_some hfind
        obtain rfl := h.inj b (List.mem_of_find?_eq_some hfind) a ha hb
        simp only [Aead.ofAnswers, hfind]
    · rw [hcipher]
      have htake : (plain ++ keyMark key).take ((plain ++ keyMark key).length - tagLength) = plain := by
        rw [List.length_append, length_keyMark, Nat.add_sub_cancel, List.take_left']
        rfl
      rcases hfind : answers.find? fun b => b.isFor key nonce aad ∧ b.cipher = plain ++ keyMark key with _ | b
      · simp only [Aead.ofAnswers, hfind, htake]
        exact if_pos ⟨trivial, hany⟩
      · obtain ⟨hfor, hb⟩ : b.isFor key nonce aad ∧ b.cipher = plain ++ keyMark key := by
          simpa using List.find?_some hfind
        have hmem := List.mem_of_find?_eq_some hfind
        refine absurd ?_ (h.unmarked b hmem b.key (h.known b hmem))
        rw [hb, hfor.1]
        exact List.suffix_append _ _
  length_encrypt key nonce aad plain := by
    rcases ofAnswers_encrypt answers key nonce aad plain with
      ⟨a, ha, -, rfl, hcipher⟩ | ⟨-, hcipher⟩
    · rw [hcipher, h.length a ha]
    · rw [hcipher, List.length_append, length_keyMark]
  length_decrypt key nonce aad cipher plain hopen := by
    rcases ofAnswers_decrypt hopen with ⟨a, ha, -, rfl, rfl⟩ | rfl
    · exact h.length a ha
    · rw [List.length_append, length_keyMark]

theorem ofAnswers_rejects (h : AnswersOk keys answers) {other : Bytes} (hkey : key ∈ keys) (hother : other ∈ keys)
    (hmark : keyMark key ≠ keyMark other) : (Aead.ofAnswers answers).Rejects key other := by
  intro nonce aad plain
  rcases hopen : (Aead.ofAnswers answers).decrypt other nonce aad
    ((Aead.ofAnswers answers).encrypt key nonce aad plain) with _ | out
  · rfl
  exfalso
  rcases ofAnswers_encrypt answers key nonce aad plain with
    ⟨a, ha, hfor, -, hcipher⟩ | ⟨-, hcipher⟩ <;> rw [hcipher] at hopen
  · rcases ofAnswers_decrypt hopen with ⟨b, hb, hfor', hcipher', -⟩ | hcipher'
    · obtain rfl := h.inj b hb a ha hcipher'
      exact hmark (by rw [← hfor.1, ← hfor'.1])
    · refine h.unmarked a ha other hother ?_
      rw [hcipher']
      exact List.suffix_append _ _
  · rcases ofAnswers_decrypt hopen with ⟨b, hb, hfor', hcipher', -⟩ | hcipher'
    · refine h.unmarked b hb key hkey ?_
      rw [hcipher']
      exact List.suffix_append _ _
    · exact hmark (List.append_inj_right' hcipher' (by rw [length_keyMark, length_keyMark]))

end KnownAnswers

end Transform.Lib
