import Transform.Security.Encryption

/-!
# Security.Fencr — the browser's encoder and the server's decoder

`fencrEncrypt` slices the file by offsets and seals each slice; the server reads the blob in pieces of the chunk size
that the header tells.  `fencr_agree_iff`: they agree as long as the header's four bytes hold the chunk size, or the
file fits in what they hold of it.
-/

namespace Transform.Security

open Lib

/-! ## The encoder -/

section Encoder

variable (C : Crypto)

def clientMagic : Bytes := [0x46, 0x45, 0x4e, 0x43, 0x52]

def clientVersion : UInt8 := 0x01

/-- `DataView.setUint32`: what four bytes hold of a number. -/
def setUint32 (n : ℕ) : Bytes := bigEndian 4 n

def buildHeader (chunkSize : ℕ) (salt noncePrefix : Bytes) : Bytes :=
  clientMagic ++ clientVersion :: setUint32 chunkSize ++ salt ++ noncePrefix

def buildNonce (noncePrefix : Bytes) (counter : ℕ) : Bytes := noncePrefix ++ setUint32 counter

def deriveFileKey (dataKey salt : Bytes) : Bytes := C.hkdf salt (utf8 "transform-client-v1:enc") dataKey

/-- The slices of the file from an offset on, sealed. -/
def encryptSlices (key noncePrefix plaintext : Bytes) {chunkSize : ℕ} (hpos : 0 < chunkSize) (offset counter : ℕ) :
    List Bytes :=
  if offset < plaintext.length then
    let slice := (plaintext.drop offset).take (min (offset + chunkSize) plaintext.length - offset)
    C.aesGcm.encrypt key (buildNonce noncePrefix counter) (utf8 "transform-client-v1") slice ::
      encryptSlices key noncePrefix plaintext hpos (offset + chunkSize) (counter + 1)
  else []
termination_by plaintext.length - offset

/-- `fencrEncrypt`. -/
def fencrEncrypt (plaintext dataKey salt noncePrefix : Bytes) (chunkSize : ℤ) : Except String Bytes :=
  if hpos : chunkSize ≤ 0 then .error "chunkSize must be a positive integer."
  else if dataKey.length ≠ 32 then .error "dataKey must be exactly 32 bytes."
  else if salt.length ≠ 16 then .error "salt must be exactly 16 bytes."
  else if noncePrefix.length ≠ 8 then .error "noncePrefix must be exactly 8 bytes."
  else
    let slices := encryptSlices C (deriveFileKey C dataKey salt) noncePrefix plaintext
      (by omega : 0 < chunkSize.toNat) 0 0
    .ok (buildHeader chunkSize.toNat salt noncePrefix ++ slices.flatten)

end Encoder

/-! ## Slices and reads -/

section Slices

variable {C : Crypto} {plaintext dataKey salt noncePrefix : Bytes}

/-- The chunks of a file, sealed by the browser. -/
def sealedSlices (C : Crypto) (key noncePrefix : Bytes) (chunks : List Bytes) : List Bytes :=
  numbered (fun i chunk => C.aesGcm.encrypt key (nonceOf noncePrefix i) fencrAad chunk) 0 chunks

theorem slice_eq (offset chunkSize : ℕ) : (plaintext.drop offset).take (min (offset + chunkSize) plaintext.length - offset) =
    (plaintext.drop offset).take chunkSize := by
  by_cases hle : offset + chunkSize ≤ plaintext.length
  · rw [Nat.min_eq_left hle, Nat.add_sub_cancel_left]
  · rw [Nat.min_eq_right (by omega), ← List.length_drop, List.take_length,
      List.take_of_length_le (by rw [List.length_drop]; omega)]

theorem encryptSlices_eq {key : Bytes} {chunkSize : ℕ} (hpos : 0 < chunkSize) (offset counter : ℕ) :
    encryptSlices C key noncePrefix plaintext hpos offset counter =
      numbered (fun i chunk => C.aesGcm.encrypt key (nonceOf noncePrefix i) fencrAad chunk) counter
        (reads chunkSize (plaintext.drop offset)) := by
  rw [encryptSlices]
  by_cases hlt : offset < plaintext.length
  · have hne : (plaintext.drop offset).take chunkSize ≠ [] :=
      take_ne_nil hpos (List.ne_nil_of_length_pos (by rw [List.length_drop]; omega))
    have ih : encryptSlices C key noncePrefix plaintext hpos (offset + chunkSize) (counter + 1) = _ :=
      encryptSlices_eq hpos (offset + chunkSize) (counter + 1)
    rw [if_pos hlt, slice_eq, ih, reads_cons hne, numbered, List.drop_drop]
    rfl
  · rw [if_neg hlt, List.drop_eq_nil_of_le (by omega), reads_nil, numbered]
termination_by plaintext.length - offset

def blobOf (C : Crypto) (plaintext dataKey salt noncePrefix : Bytes) (chunkSize : ℕ) : Bytes :=
  fencr.header ⟨chunkSize, salt, noncePrefix⟩ ++
    (sealedSlices C (deriveFencrFileKey C salt dataKey) noncePrefix (reads chunkSize plaintext)).flatten

/-- The encoder writes the server's header, and the chunks sealed. -/
theorem fencrEncrypt_ok {chunkSize : ℤ} (hpos : 1 ≤ chunkSize) (hkey : dataKey.length = 32) (hsalt : salt.length = 16)
    (hnonce : noncePrefix.length = 8) :
    fencrEncrypt C plaintext dataKey salt noncePrefix chunkSize =
      .ok (blobOf C plaintext dataKey salt noncePrefix chunkSize.toNat) := by
  unfold fencrEncrypt
  rw [dif_neg (by omega), if_neg (by omega), if_neg (by omega), if_neg (by omega)]
  dsimp only
  rw [encryptSlices_eq]
  rfl

end Slices

/-! ## Agreement -/

section Agreement

variable {C : Crypto} {plaintext dataKey salt noncePrefix : Bytes}

theorem decryptFencrChunk_sealed (hA : C.aesGcm.Lawful) {key chunk : Bytes} {j : ℕ} (hj : j < 2 ^ 32) :
    decryptFencrChunk C key noncePrefix j (C.aesGcm.encrypt key (nonceOf noncePrefix j) fencrAad chunk) = .ok chunk := by
  unfold decryptFencrChunk
  rw [if_neg (by omega), hA.decrypt_encrypt]

theorem decryptFencrChunk_length (hA : C.aesGcm.Lawful) {key : Bytes} (j : ℕ) (chunk plain : Bytes)
    (h : decryptFencrChunk C key noncePrefix j chunk = .ok plain) : chunk.length = plain.length + tagLength := by
  unfold decryptFencrChunk at h
  split_ifs at h with hj
  split at h
  · cases h
  · rename_i plain' hopen
    cases h
    exact hA.length_decrypt _ _ _ _ _ hopen

theorem decryptFencrBytes_blobOf (hsalt : salt.length = saltLength) (hnonce : noncePrefix.length = noncePrefixLength)
    (chunkSize : ℕ) :
    decryptFencrBytes C (blobOf C plaintext dataKey salt noncePrefix chunkSize) dataKey =
      if chunkSize % 2 ^ 32 = 0 then .error (.valueError "Invalid FENCR chunk_size (must be positive)")
      else (eachPiece (decryptFencrChunk C (deriveFencrFileKey C salt dataKey) noncePrefix) 0
        (reads (chunkSize % 2 ^ 32 + tagLength) (sealedSlices C (deriveFencrFileKey C salt dataKey) noncePrefix
          (reads chunkSize plaintext)).flatten)).joined := by
  have hparse := parse_header (f := fencr) rfl (h := ⟨chunkSize, salt, noncePrefix⟩) ⟨hsalt, hnonce⟩
    (sealedSlices C (deriveFencrFileKey C salt dataKey) noncePrefix (reads chunkSize plaintext)).flatten
  have hdrop := drop_header (f := fencr) rfl (h := ⟨chunkSize, salt, noncePrefix⟩) ⟨hsalt, hnonce⟩
    (sealedSlices C (deriveFencrFileKey C salt dataKey) noncePrefix (reads chunkSize plaintext)).flatten
  unfold decryptFencrBytes iterDecryptFencr blobOf
  rw [hparse]
  simp only [hdrop]
  split_ifs
  · rfl
  · rw [chunkLoop_eq]

theorem decrypt_of_isCut (hA : C.aesGcm.Lawful) {m chunkSize : ℕ} (key : Bytes) (hcut : IsCut m (reads chunkSize plaintext))
    (hpos : 0 < chunkSize) (hchunks : (reads chunkSize plaintext).length ≤ 2 ^ 32) :
    (eachPiece (decryptFencrChunk C key noncePrefix) 0
      (reads (m + tagLength) (sealedSlices C key noncePrefix (reads chunkSize plaintext)).flatten)).joined =
        .ok plaintext := by
  have hsealed : IsCut (m + tagLength) (sealedSlices C key noncePrefix (reads chunkSize plaintext)) :=
    isCut_numbered (fun i chunk => hA.length_encrypt key (nonceOf noncePrefix i) fencrAad chunk) hcut 0
  have hloop : eachPiece (decryptFencrChunk C key noncePrefix) 0
      (sealedSlices C key noncePrefix (reads chunkSize plaintext)) = ⟨reads chunkSize plaintext, .ok ()⟩ :=
    eachPiece_numbered fun j x _ hj _ => decryptFencrChunk_sealed hA (by omega)
  rw [reads_flatten hsealed, hloop]
  simp only [Generated.joined, Except.map, flatten_reads hpos]

theorem not_decrypt_of_lt (hA : C.aesGcm.Lawful) {m chunkSize : ℕ} (key : Bytes) (hpos : 0 < chunkSize)
    (hm : m + 2 ^ 32 ≤ chunkSize) (hsmall : m < 2 ^ 32) (hlt : m < plaintext.length) :
    (eachPiece (decryptFencrChunk C key noncePrefix) 0
      (reads (m + tagLength) (sealedSlices C key noncePrefix (reads chunkSize plaintext)).flatten)).joined ≠
        .ok plaintext := by
  intro h
  obtain ⟨houtcome, hplain⟩ := joined_ok h
  have hread := length_flatten_eachPiece (decryptFencrChunk_length hA) houtcome
  have hpieces : 0 < m + tagLength := by simp [tagLength]
  have hsealed := length_flatten_numbered
    (fun i chunk => hA.length_encrypt key (nonceOf noncePrefix i) fencrAad chunk) 0 (reads chunkSize plaintext)
  have hpiece := length_flatten_le (reads_isCut hpieces
    (sealedSlices C key noncePrefix (reads chunkSize plaintext)).flatten)
  have hchunks := lt_length_flatten (reads_isCut hpos plaintext) (by
    intro hnil
    have hflat := flatten_reads hpos plaintext
    rw [hnil] at hflat
    rw [← hflat] at hlt
    cases hlt)
  rw [flatten_reads hpieces, hplain] at hread
  rw [flatten_reads hpieces] at hpiece
  rw [flatten_reads hpos] at hsealed hchunks
  change (sealedSlices C key noncePrefix (reads chunkSize plaintext)).flatten.length = _ at hsealed
  rw [Nat.add_mul] at hpiece
  simp only [tagLength] at hread hsealed hpiece
  -- as many pieces as chunks, so the file fits in that many pieces of `m`
  have hsame : (reads (m + 16) (sealedSlices C key noncePrefix (reads chunkSize plaintext)).flatten).length =
      (reads chunkSize plaintext).length := by omega
  rw [hsame] at hpiece
  rcases hcount : (reads chunkSize plaintext).length with _ | k
  · rw [hcount] at hpiece hsealed
    omega
  · rw [hcount] at hpiece hsealed hchunks
    rw [Nat.add_sub_cancel] at hchunks
    have hfits : plaintext.length ≤ m * k + m := by
      rw [Nat.mul_succ] at hpiece
      omega
    have hfull : (m + 2 ^ 32) * k ≤ chunkSize * k := Nat.mul_le_mul_right k hm
    rw [Nat.add_mul] at hfull
    rcases Nat.eq_zero_or_pos k with rfl | hk
    · omega
    · omega

/-- **Browser and server agree** on a file, exactly if the header's four bytes hold the chunk size, or the file fits in
what they hold of it. -/
theorem fencr_agree_iff (hA : C.aesGcm.Lawful) (hkey : dataKey.length = 32) (hsalt : salt.length = saltLength)
    (hnonce : noncePrefix.length = noncePrefixLength) {chunkSize : ℤ} (hpos : 1 ≤ chunkSize)
    (hchunks : (reads chunkSize.toNat plaintext).length ≤ 2 ^ 32) :
    ∃ blob, fencrEncrypt C plaintext dataKey salt noncePrefix chunkSize = .ok blob ∧
      (decryptFencrBytes C blob dataKey = .ok plaintext ↔
        chunkSize < 2 ^ 32 ∨ 0 < chunkSize % 2 ^ 32 ∧ (plaintext.length : ℤ) ≤ chunkSize % 2 ^ 32) := by
  refine ⟨_, fencrEncrypt_ok hpos hkey hsalt hnonce, ?_⟩
  rw [decryptFencrBytes_blobOf hsalt hnonce]
  have hsize : 0 < chunkSize.toNat := by omega
  by_cases hfits : chunkSize < 2 ^ 32
  · have hmod : chunkSize.toNat % 2 ^ 32 = chunkSize.toNat := Nat.mod_eq_of_lt (by omega)
    rw [if_neg (by omega), hmod]
    exact iff_of_true (decrypt_of_isCut hA _ (reads_isCut hsize plaintext) hsize hchunks) (.inl hfits)
  have hmod : ((chunkSize.toNat % 2 ^ 32 : ℕ) : ℤ) = chunkSize % 2 ^ 32 := by omega
  by_cases hzero : chunkSize.toNat % 2 ^ 32 = 0
  · rw [if_pos hzero]
    refine iff_of_false (fun h => (by cases h)) ?_
    rintro (h | ⟨h, -⟩) <;> omega
  rw [if_neg hzero]
  by_cases hfile : plaintext.length ≤ chunkSize.toNat % 2 ^ 32
  · refine iff_of_true (decrypt_of_isCut hA _ ?_ hsize hchunks) (.inr ⟨by omega, by omega⟩)
    -- the file is one chunk, or none
    by_cases hnil : plaintext = []
    · rw [hnil, reads_nil]
      exact .nil
    · have htake : plaintext.take chunkSize.toNat = plaintext := List.take_of_length_le (by omega)
      rw [reads_cons (by rw [htake]; exact hnil), htake, List.drop_eq_nil_of_le (by omega), reads_nil]
      exact .last hnil hfile
  · refine iff_of_false (not_decrypt_of_lt hA _ hsize (by omega) (Nat.mod_lt _ (by omega)) (by omega)) ?_
    rintro (h | ⟨-, h⟩) <;> omega

end Agreement

/-! ## Known answers -/

section Concrete

def vectorSalt : Bytes := [1, 2, 3, 4, 5, 6, 7, 8, 9, 10, 11, 12, 13, 14, 15, 16]

def vectorPrefix : Bytes := [0xaa, 0xaa, 0xaa, 0xaa, 0xaa, 0xaa, 0xaa, 0xaa]

def vectorDataKey : Bytes := List.replicate 32 0x42

/-- HKDF of the data key. -/
def vectorFileKey : Bytes :=
  [0x1e, 0xa3, 0xca, 0xee, 0xcd, 0x8f, 0x53, 0x7c, 0xe8, 0xc1, 0x68, 0x32, 0x8a, 0x16, 0x89, 0x0f, 0x71, 0x8c, 0x16,
    0x89, 0x14, 0x54, 0x94, 0xb1, 0xc2, 0x3f, 0x10, 0x5d, 0x0e, 0xc8, 0xfe, 0xf5]

/-- "hello world". -/
def vectorPlaintext : Bytes := [0x68, 0x65, 0x6c, 0x6c, 0x6f, 0x20, 0x77, 0x6f, 0x72, 0x6c, 0x64]

/-- AES-256-GCM of it under the file key. -/
def vectorSealed : Bytes :=
  [0x6a, 0x36, 0xd4, 0x88, 0xa5, 0x50, 0x57, 0xeb, 0x9a, 0x48, 0x37, 0x41, 0x10, 0x65, 0xb7, 0xc6, 0x00, 0xf0, 0x67,
    0xcd, 0xde, 0xbf, 0xa0, 0x67, 0xf4, 0xb0, 0x6a]

def vectorAnswers : List KnownAnswer :=
  [⟨vectorFileKey, nonceOf vectorPrefix 0, fencrAad, vectorPlaintext, vectorSealed⟩]

def vectorCrypto : Crypto where
  hkdf salt info ikm :=
    if salt = vectorSalt ∧ info = fencrHkdfInfo ∧ ikm = vectorDataKey then vectorFileKey else []
  aesGcm := .ofAnswers vectorAnswers

theorem vectorCrypto_lawful : vectorCrypto.aesGcm.Lawful :=
  @ofAnswers_lawful [vectorFileKey] vectorAnswers ⟨by decide, by decide, by decide, by decide⟩

theorem reads_vector {n : ℕ} (h : 11 ≤ n) : reads n vectorPlaintext = [vectorPlaintext] := by
  have hcut : IsCut n [vectorPlaintext] := .last (by decide) h
  exact reads_flatten hcut

/-- The golden vector. -/
theorem fencr_agree_iff_golden :
    ∃ blob, fencrEncrypt vectorCrypto vectorPlaintext vectorDataKey vectorSalt vectorPrefix 16 = .ok blob ∧
      decryptFencrBytes vectorCrypto blob vectorDataKey = .ok vectorPlaintext := by
  have hchunks : (reads (16 : ℤ).toNat vectorPlaintext).length ≤ 2 ^ 32 := by
    show (reads 16 vectorPlaintext).length ≤ 2 ^ 32
    rw [reads_vector (by omega)]
    decide
  obtain ⟨blob, hblob, hiff⟩ := @fencr_agree_iff vectorCrypto vectorPlaintext vectorDataKey vectorSalt vectorPrefix
    vectorCrypto_lawful (by decide) (by decide) (by decide) 16 (by decide) hchunks
  exact ⟨blob, hblob, hiff.2 (.inl (by decide))⟩

/-- A chunk size of which the header keeps four. -/
def wideChunkSize : ℤ := 2 ^ 32 + 4

/-- With a chunk size that the header cannot hold, the encoder writes a blob that does not decode to the file. -/
theorem wide_blob : ¬ ∀ (C : Crypto) (plaintext dataKey salt noncePrefix : Bytes) (chunkSize : ℤ) (blob : Bytes),
    C.aesGcm.Lawful → dataKey.length = 32 → salt.length = saltLength → noncePrefix.length = noncePrefixLength →
    1 ≤ chunkSize → (reads chunkSize.toNat plaintext).length ≤ 2 ^ 32 →
    fencrEncrypt C plaintext dataKey salt noncePrefix chunkSize = .ok blob →
    decryptFencrBytes C blob dataKey = .ok plaintext := by
  intro h
  have hchunks : (reads wideChunkSize.toNat vectorPlaintext).length ≤ 2 ^ 32 := by
    rw [reads_vector (by decide)]
    decide
  have hblob : fencrEncrypt vectorCrypto vectorPlaintext vectorDataKey vectorSalt vectorPrefix wideChunkSize = .ok _ :=
    fencrEncrypt_ok (by decide) (by decide) (by decide) (by decide)
  have hout := h vectorCrypto vectorPlaintext vectorDataKey vectorSalt vectorPrefix wideChunkSize _ vectorCrypto_lawful
    (by decide) (by decide) (by decide) (by decide) hchunks hblob
  rw [decryptFencrBytes_blobOf (by decide) (by decide), if_neg (by decide)] at hout
  exact not_decrypt_of_lt vectorCrypto_lawful _ (by decide) (by decide) (by decide) (by decide) hout

end Concrete

end Transform.Security
