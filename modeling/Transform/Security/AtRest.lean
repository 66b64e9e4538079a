import Transform.Security.Encryption

/-!
# Security.AtRest — what the at-rest format keeps

`decryptStream_encryptStream`: what was encrypted is decrypted, under any service that still has the master key.
`decryptBytes_leading`: of a changed file, decryption returns leading chunks of the text, cut where the file was cut, or
raises.
-/

namespace Transform.Security

open Lib

variable {C : Crypto} {svc svc' : FileEncryptionService} {salt noncePrefix plaintext : Bytes} {userId : String}

/-! ## The file -/

section File

def sealed (C : Crypto) (key noncePrefix aad : Bytes) (chunks : List Bytes) : List Bytes :=
  numbered (fun i chunk => C.aesGcm.encrypt key (nonceOf noncePrefix i) aad chunk) 0 chunks

/-- The key of the file under the service's current master key. -/
def fileKey (C : Crypto) (svc : FileEncryptionService) (salt : Bytes) (userId : String) : Bytes :=
  deriveStreamKey C salt userId svc.masterKey

def encryptedFile (C : Crypto) (svc : FileEncryptionService) (salt noncePrefix plaintext : Bytes) (userId : String)
    (chunkSize : ℕ) : Bytes :=
  stream.header ⟨chunkSize, salt, noncePrefix⟩ ++
    (sealed C (fileKey C svc salt userId) noncePrefix (buildAad userId) (reads chunkSize plaintext)).flatten

/-- `encrypt_stream` writes the header and the sealed chunks. -/
theorem encryptStream_ok {chunkSize : ℤ} (hpos : 1 ≤ chunkSize) (hfits : chunkSize < 2 ^ 32)
    (hchunks : (reads chunkSize.toNat plaintext).length ≤ 2 ^ 32) :
    encryptStream C svc salt noncePrefix plaintext userId chunkSize =
      .ok (encryptedFile C svc salt noncePrefix plaintext userId chunkSize.toNat) := by
  have hbytes : toBytes4 chunkSize.toNat = .ok (bigEndian 4 chunkSize.toNat) := if_neg (by omega)
  have hloop : chunkLoop (encryptChunk C (fileKey C svc salt userId) noncePrefix (buildAad userId)) chunkSize.toNat
      plaintext 0 = ⟨sealed C (fileKey C svc salt userId) noncePrefix (buildAad userId) (reads chunkSize.toNat plaintext),
        .ok ()⟩ := by
    rw [chunkLoop_eq]
    refine eachPiece_ok fun j chunk _ hj _ => ?_
    exact if_neg (by omega)
  unfold encryptStream
  rw [if_neg (by omega)]
  show (toBytes4 chunkSize.toNat >>= fun size => (chunkLoop (encryptChunk C (fileKey C svc salt userId) noncePrefix
    (buildAad userId)) chunkSize.toNat plaintext 0).joined >>= fun chunks => _) = _
  rw [hbytes, hloop]
  simp only [Generated.joined, Except.map, encryptedFile, Format.header]
  rfl

theorem sealed_isCut (hA : C.aesGcm.Lawful) {chunkSize : ℕ} {pieces : List Bytes} (hcut : IsCut chunkSize pieces)
    (key noncePrefix aad : Bytes) : IsCut (chunkSize + 16) (sealed C key noncePrefix aad pieces) :=
  isCut_numbered (fun i chunk => hA.length_encrypt key (nonceOf noncePrefix i) aad chunk) hcut 0

end File

/-! ## Decryption undoes encryption -/

section RoundTrip

/-- A search that can only answer `b` answers `b`. -/
theorem findSome?_eq {α β : Type} {f : α → Option β} {b : β} : ∀ {l : List α},
    (∃ a ∈ l, f a = some b) → (∀ a ∈ l, f a = none ∨ f a = some b) → l.findSome? f = some b
  | [], h, _ => by simp at h
  | a :: l, h, hall => by
    rcases hall a List.mem_cons_self with ha | ha
    · rw [List.findSome?_cons, ha]
      refine findSome?_eq ?_ fun a' ha' => hall a' (List.mem_cons_of_mem _ ha')
      obtain ⟨a', ha', hb⟩ := h
      rcases List.mem_cons.1 ha' with rfl | ha'
      · rw [ha] at hb
        cases hb
      · exact ⟨a', ha', hb⟩
    · rw [List.findSome?_cons, ha]

theorem selectKey_sealed (hA : C.aesGcm.Lawful) (hmaster : svc.masterKey ∈ svc'.masterKeys)
    (hwrong : ∀ other ∈ svc'.masterKeys, deriveStreamKey C salt userId other ≠ fileKey C svc salt userId →
      C.aesGcm.Rejects (fileKey C svc salt userId) (deriveStreamKey C salt userId other)) (chunkSize : ℕ) (chunk : Bytes) :
    selectKey C svc' ⟨chunkSize, salt, noncePrefix⟩ userId
        (C.aesGcm.encrypt (fileKey C svc salt userId) (nonceOf noncePrefix 0) (buildAad userId) chunk) =
      some (fileKey C svc salt userId, chunk) := by
  have hself : ∀ master, deriveStreamKey C salt userId master = fileKey C svc salt userId →
      (C.aesGcm.decrypt (deriveStreamKey C salt userId master) (nonceOf noncePrefix 0) (buildAad userId)
        (C.aesGcm.encrypt (fileKey C svc salt userId) (nonceOf noncePrefix 0) (buildAad userId) chunk)).map
          (fun plain => (deriveStreamKey C salt userId master, plain)) = some (fileKey C svc salt userId, chunk) := by
    intro master hm
    rw [hm, hA.decrypt_encrypt]
    rfl
  refine findSome?_eq ⟨svc.masterKey, hmaster, hself _ rfl⟩ fun other hother => ?_
  by_cases hsame : deriveStreamKey C salt userId other = fileKey C svc salt userId
  · exact .inr (hself other hsame)
  · refine .inl ?_
    dsimp only
    rw [hwrong other hother hsame]
    rfl

theorem decryptChunk_eq {key aad chunk : Bytes} {j : ℕ} (hj : j < 2 ^ 32) :
    decryptChunk C key noncePrefix aad j chunk = match C.aesGcm.decrypt key (nonceOf noncePrefix j) aad chunk with
      | none => .error .invalidTag
      | some plain => .ok plain := by
  have hbytes : toBytes4 j = .ok (bigEndian 4 j) := if_neg (by omega)
  unfold decryptChunk
  rw [hbytes]
  rfl

theorem decryptChunk_sealed (hA : C.aesGcm.Lawful) {key aad chunk : Bytes} {j : ℕ} (hj : j < 2 ^ 32) :
    decryptChunk C key noncePrefix aad j (C.aesGcm.encrypt key (nonceOf noncePrefix j) aad chunk) = .ok chunk := by
  rw [decryptChunk_eq hj, hA.decrypt_encrypt]

theorem iterDecrypt_sealed (hA : C.aesGcm.Lawful) (hmaster : svc.masterKey ∈ svc'.masterKeys)
    (hwrong : ∀ other ∈ svc'.masterKeys, deriveStreamKey C salt userId other ≠ fileKey C svc salt userId →
      C.aesGcm.Rejects (fileKey C svc salt userId) (deriveStreamKey C salt userId other))
    (hsalt : salt.length = saltLength) (hnonce : noncePrefix.length = noncePrefixLength) {chunkSize : ℕ}
    (hfits : chunkSize < 2 ^ 32) {pieces : List Bytes} (hcut : IsCut chunkSize pieces) (hpieces : pieces.length ≤ 2 ^ 32) :
    iterDecrypt C svc' (stream.header ⟨chunkSize, salt, noncePrefix⟩ ++
      (sealed C (fileKey C svc salt userId) noncePrefix (buildAad userId) pieces).flatten) userId = ⟨pieces, .ok ()⟩ := by
  have hparse := parse_header (f := stream) rfl (h := ⟨chunkSize, salt, noncePrefix⟩) ⟨hsalt, hnonce⟩
    (sealed C (fileKey C svc salt userId) noncePrefix (buildAad userId) pieces).flatten
  have hdrop := drop_header (f := stream) rfl (h := ⟨chunkSize, salt, noncePrefix⟩) ⟨hsalt, hnonce⟩
    (sealed C (fileKey C svc salt userId) noncePrefix (buildAad userId) pieces).flatten
  have hmod : chunkSize % 2 ^ 32 = chunkSize := Nat.mod_eq_of_lt hfits
  have hread : reads (chunkSize + 16) (sealed C (fileKey C svc salt userId) noncePrefix (buildAad userId) pieces).flatten =
      sealed C (fileKey C svc salt userId) noncePrefix (buildAad userId) pieces :=
    reads_flatten (sealed_isCut hA hcut _ noncePrefix _)
  unfold iterDecrypt
  rw [hparse]
  simp only [hdrop, hmod]
  rcases pieces with _ | ⟨chunk, chunks⟩
  · rfl
  · have hne : (sealed C (fileKey C svc salt userId) noncePrefix (buildAad userId) (chunk :: chunks)).flatten.take
        (chunkSize + 16) ≠ [] := by
      intro hnil
      rw [reads, dif_pos hnil] at hread
      cases hread
    rw [reads_cons hne] at hread
    obtain ⟨hfirst, hrest⟩ := List.cons.inj hread
    rw [if_neg hne, hfirst, selectKey_sealed hA hmaster hwrong]
    have hloop : eachPiece (decryptChunk C (fileKey C svc salt userId) noncePrefix (buildAad userId)) 1
        (numbered (fun i chunk => C.aesGcm.encrypt (fileKey C svc salt userId) (nonceOf noncePrefix i) (buildAad userId)
          chunk) 1 chunks) = ⟨chunks, .ok ()⟩ := by
      refine eachPiece_numbered fun j x _ hj _ => decryptChunk_sealed hA ?_
      rw [List.length_cons] at hpieces
      omega
    dsimp only
    rw [chunkLoop_eq, hrest, hloop]
    rfl

/-- **Round trip**: the decryption of an encrypted text is the text, whatever its length, and wherever its master key
stands among those that the service tries. -/
theorem decryptStream_encryptStream (hA : C.aesGcm.Lawful) (hmaster : svc.masterKey ∈ svc'.masterKeys)
    (hwrong : ∀ other ∈ svc'.masterKeys, deriveStreamKey C salt userId other ≠ fileKey C svc salt userId →
      C.aesGcm.Rejects (fileKey C svc salt userId) (deriveStreamKey C salt userId other))
    (hsalt : salt.length = saltLength) (hnonce : noncePrefix.length = noncePrefixLength) {chunkSize : ℤ}
    (hpos : 1 ≤ chunkSize) (hfits : chunkSize < 2 ^ 32) (hchunks : (reads chunkSize.toNat plaintext).length ≤ 2 ^ 32) :
    ∃ cipher, encryptStream C svc salt noncePrefix plaintext userId chunkSize = .ok cipher ∧
      decryptStream C svc' cipher userId = (plaintext, .ok ()) := by
  refine ⟨_, encryptStream_ok hpos hfits hchunks, ?_⟩
  have hsize : 1 ≤ chunkSize.toNat := by omega
  have hiter : iterDecrypt C svc' (encryptedFile C svc salt noncePrefix plaintext userId chunkSize.toNat) userId =
      ⟨reads chunkSize.toNat plaintext, .ok ()⟩ :=
    iterDecrypt_sealed hA hmaster hwrong hsalt hnonce (by omega) (reads_isCut hsize plaintext) hchunks
  unfold decryptStream
  rw [hiter]
  dsimp only
  rw [flatten_reads hsize plaintext]

end RoundTrip

/-! ## Changed files -/

section Changed

/-- What encrypting a text produces under its key: each chunk, sealed under the nonce of its number. -/
def Produced (C : Crypto) (fileKey noncePrefix aad : Bytes) (chunks : List Bytes) (key nonce aad' cipher : Bytes) : Prop :=
  key = fileKey ∧ aad' = aad ∧ ∃ i chunk, chunks[i]? = some chunk ∧ nonce = nonceOf noncePrefix i ∧
    cipher = C.aesGcm.encrypt key nonce aad' chunk

def saltAndPrefix (file : Bytes) : Bytes := (file.drop 10).take (saltLength + noncePrefixLength)

theorem chunkSize_fits {chunkSize : ℤ} {cipher : Bytes}
    (h : encryptStream C svc salt noncePrefix plaintext userId chunkSize = .ok cipher) : chunkSize < 2 ^ 32 := by
  by_contra hfits
  have hbytes : toBytes4 chunkSize.toNat = .error (.overflowError "int too big to convert") := if_pos (by omega)
  rw [encryptStream, if_neg (by omega)] at h
  change (toBytes4 chunkSize.toNat >>= fun size => _) = _ at h
  rw [hbytes] at h
  cases h

theorem encryptStream_inv {chunkSize : ℤ} {cipher : Bytes}
    (h : encryptStream C svc salt noncePrefix plaintext userId chunkSize = .ok cipher) :
    1 ≤ chunkSize.toNat ∧ (reads chunkSize.toNat plaintext).length ≤ 2 ^ 32 ∧
      cipher = encryptedFile C svc salt noncePrefix plaintext userId chunkSize.toNat := by
  by_cases hpos : chunkSize ≤ 0
  · rw [encryptStream, if_pos hpos] at h
    cases h
  by_cases hfits : chunkSize < 2 ^ 32
  · by_cases hchunks : (reads chunkSize.toNat plaintext).length ≤ 2 ^ 32
    · rw [encryptStream_ok (by omega) hfits hchunks] at h
      cases h
      exact ⟨by omega, hchunks, rfl⟩
    · -- the loop has raised at the chunk that its counter cannot number
      exfalso
      have hbytes : toBytes4 chunkSize.toNat = .ok (bigEndian 4 chunkSize.toNat) := if_neg (by omega)
      have hloop : ∃ chunks, (eachPiece (encryptChunk C (fileKey C svc salt userId) noncePrefix (buildAad userId)) 0
          (reads chunkSize.toNat plaintext)).joined = .ok chunks := by
        rw [← chunkLoop_eq]
        rw [encryptStream, if_neg hpos] at h
        rcases hg : (chunkLoop (encryptChunk C (fileKey C svc salt userId) noncePrefix (buildAad userId)) chunkSize.toNat
          plaintext 0).joined with e | chunks
        · change (toBytes4 chunkSize.toNat >>= fun size => (chunkLoop (encryptChunk C (fileKey C svc salt userId)
            noncePrefix (buildAad userId)) chunkSize.toNat plaintext 0).joined >>= fun chunks => _) = _ at h
          rw [hbytes, hg] at h
          cases h
        · exact ⟨chunks, rfl⟩
      obtain ⟨chunks, hchunks'⟩ := hloop
      obtain ⟨-, hall⟩ := eachPiece_outcome_ok (joined_ok hchunks').1
      obtain ⟨chunk, hchunk⟩ : ∃ chunk, (reads chunkSize.toNat plaintext)[2 ^ 32]? = some chunk :=
        ⟨_, List.getElem?_eq_getElem (by omega)⟩
      obtain ⟨y, hy, -⟩ := hall (2 ^ 32) chunk hchunk
      rw [encryptChunk, if_pos (by omega)] at hy
      cases hy
  · exact absurd (chunkSize_fits h) hfits

/-- A header that parses is read off its fixed places. -/
theorem parse_ok {f : Format} {src : Bytes} {h : Header} (hparse : f.parse src = .ok h) :
    headerLength ≤ src.length ∧ h.salt = (saltAndPrefix src).take saltLength ∧
      h.noncePrefix = (saltAndPrefix src).drop saltLength := by
  unfold Format.parse at hparse
  dsimp only at hparse
  split_ifs at hparse with hbad hversion
  cases hparse
  have hlen : (src.take headerLength).length = headerLength := by
    by_contra hne
    exact hbad (.inl hne)
  rw [List.length_take] at hlen
  refine ⟨by omega, ?_, ?_⟩
  · show ((src.take headerLength).drop 10).take saltLength = _
    simp only [saltAndPrefix, List.drop_take, List.take_take]
    rfl
  · show ((src.take headerLength).drop 26).take noncePrefixLength = _
    simp only [saltAndPrefix, List.drop_take, List.take_take, List.drop_drop]
    rfl

theorem chunk_of_produced (hA : C.aesGcm.Lawful) {key aad cipher plain : Bytes} {chunks : List Bytes} {j : ℕ}
    (hchunks : chunks.length ≤ 2 ^ 32) (hj : j < 2 ^ 32) (hopen : C.aesGcm.decrypt key (nonceOf noncePrefix j) aad cipher =
      some plain) {fileKey aad' : Bytes} (h : Produced C fileKey noncePrefix aad' chunks key (nonceOf noncePrefix j) aad cipher) :
    key = fileKey ∧ aad = aad' ∧ chunks[j]? = some plain ∧
      (sealed C fileKey noncePrefix aad' chunks)[j]? = some cipher := by
  obtain ⟨rfl, rfl, i, chunk, hchunk, hnonce, rfl⟩ := h
  have hi : i < chunks.length := (List.getElem?_eq_some_iff.1 hchunk).1
  obtain rfl : j = i := bigEndian_inj (w := 4) (by omega) (by omega) (List.append_cancel_left hnonce)
  rw [hA.decrypt_encrypt] at hopen
  cases hopen
  refine ⟨rfl, rfl, hchunk, ?_⟩
  unfold sealed
  rw [getElem?_numbered, hchunk, Nat.zero_add]
  rfl

theorem decryptChunk_ok {key aad chunk plain : Bytes} {j : ℕ} (h : decryptChunk C key noncePrefix aad j chunk = .ok plain) :
    j < 2 ^ 32 ∧ C.aesGcm.decrypt key (nonceOf noncePrefix j) aad chunk = some plain := by
  by_cases hj : 2 ^ 32 ≤ j
  · have hbytes : toBytes4 j = .error (.overflowError "int too big to convert") := if_pos hj
    unfold decryptChunk at h
    rw [hbytes] at h
    cases h
  · rw [decryptChunk_eq (by omega)] at h
    split at h
    · cases h
    · rename_i plain' hopen
      cases h
      exact ⟨by omega, hopen⟩

theorem iterDecrypt_ok {data : Bytes} (h : (iterDecrypt C svc data userId).outcome = .ok ()) :
    ∃ header, stream.parse data = .ok header ∧
      ((iterDecrypt C svc data userId).yielded.length = (reads (header.chunkSize + 16) (data.drop headerLength)).length ∧
        ∀ j plain, (iterDecrypt C svc data userId).yielded[j]? = some plain → j < 2 ^ 32 ∧ ∃ piece key,
          (reads (header.chunkSize + 16) (data.drop headerLength))[j]? = some piece ∧
            key ∈ svc.masterKeys.map (deriveStreamKey C header.salt userId) ∧
            C.aesGcm.decrypt key (nonceOf header.noncePrefix j) (buildAad userId) piece = some plain) := by
  unfold iterDecrypt at h ⊢
  rcases hparse : stream.parse data with e | header
  · rw [hparse] at h
    cases h
  refine ⟨header, rfl, ?_⟩
  rw [hparse] at h
  dsimp only at h ⊢
  by_cases hfirst : (data.drop headerLength).take (header.chunkSize + 16) = []
  · rw [if_pos hfirst, reads, dif_pos hfirst]
    exact ⟨rfl, fun j plain hj => (by simp [Generated.done] at hj)⟩
  · rw [if_neg hfirst] at h ⊢
    rw [reads_cons hfirst]
    rcases hselect : selectKey C svc header userId ((data.drop headerLength).take (header.chunkSize + 16)) with
      _ | ⟨key, first⟩
    · rw [hselect] at h
      cases h
    rw [hselect] at h
    dsimp only at h ⊢
    rw [chunkLoop_eq] at h ⊢
    obtain ⟨hlen, hall⟩ := eachPiece_outcome_ok h
    obtain ⟨master, hmaster, hopen⟩ := List.exists_of_findSome?_eq_some hselect
    obtain ⟨plain, hplain, hkey⟩ := Option.map_eq_some_iff.1 hopen
    obtain ⟨rfl, rfl⟩ : deriveStreamKey C header.salt userId master = key ∧ plain = first := by simpa using hkey
    refine ⟨?_, fun j out hj => ?_⟩
    · show (_ :: _).length = (_ :: _).length
      rw [List.length_cons, List.length_cons, hlen]
    cases j with
    | zero =>
      obtain rfl : plain = out := by simpa [Generated.cons] using hj
      exact ⟨by omega, _, _, rfl, List.mem_map.2 ⟨master, hmaster, rfl⟩, hplain⟩
    | succ j =>
      rw [Generated.cons, List.getElem?_cons_succ] at hj
      obtain ⟨piece, hpiece⟩ : ∃ piece, (reads (header.chunkSize + 16)
          ((data.drop headerLength).drop (header.chunkSize + 16)))[j]? = some piece := by
        refine ⟨_, List.getElem?_eq_getElem ?_⟩
        rw [← hlen]
        exact (List.getElem?_eq_some_iff.1 hj).1
      obtain ⟨out', hdec, hget⟩ := hall j piece hpiece
      rw [hget] at hj
      cases hj
      obtain ⟨hlt, hdec⟩ := decryptChunk_ok hdec
      rw [Nat.add_comm] at hlt hdec
      exact ⟨hlt, piece, _, by rw [List.getElem?_cons_succ, hpiece], List.mem_map.2 ⟨master, hmaster, rfl⟩, hdec⟩

/-- **A changed file**: where decryption only opens what the encryption of the text has produced, a file that keeps its
salt and nonce prefix either raises, or is that file cut after some leading chunks, whose texts are returned. -/
theorem decryptBytes_leading (hA : C.aesGcm.Lawful) (hsalt : salt.length = saltLength)
    (hnonce : noncePrefix.length = noncePrefixLength) {chunkSize : ℤ} {cipher data out : Bytes}
    (hcipher : encryptStream C svc salt noncePrefix plaintext userId chunkSize = .ok cipher)
    (hkeeps : saltAndPrefix data = saltAndPrefix cipher)
    (hauth : C.aesGcm.Unforged (svc'.masterKeys.map (deriveStreamKey C salt userId))
      (Produced C (fileKey C svc salt userId) noncePrefix (buildAad userId) (reads chunkSize.toNat plaintext)) data)
    (hout : decryptBytes C svc' data userId = .ok out) :
    ∃ k, out = ((reads chunkSize.toNat plaintext).take k).flatten ∧ data.drop headerLength =
      ((sealed C (fileKey C svc salt userId) noncePrefix (buildAad userId) (reads chunkSize.toNat plaintext)).take k).flatten := by
  obtain ⟨-, hchunks, rfl⟩ := encryptStream_inv hcipher
  obtain ⟨houtcome, rfl⟩ := joined_ok hout
  obtain ⟨header, hparse, hlen, hall⟩ := iterDecrypt_ok houtcome
  -- the salt and the nonce prefix are those of the file
  have hboth : saltAndPrefix (encryptedFile C svc salt noncePrefix plaintext userId chunkSize.toNat) = salt ++ noncePrefix := by
    have hsplit : encryptedFile C svc salt noncePrefix plaintext userId chunkSize.toNat =
        (stream.magic ++ [stream.version] ++ bigEndian 4 chunkSize.toNat) ++ ((salt ++ noncePrefix) ++
          (sealed C (fileKey C svc salt userId) noncePrefix (buildAad userId) (reads chunkSize.toNat plaintext)).flatten) := by
      simp [encryptedFile, Format.header]
    unfold saltAndPrefix
    rw [hsplit, List.drop_left' (by simp [stream]), List.take_left' (by simp [hsalt, hnonce])]
  obtain ⟨-, hheader, hheader'⟩ := parse_ok hparse
  rw [hkeeps, hboth, ← hsalt, List.take_left] at hheader
  rw [hkeeps, hboth, ← hsalt, List.drop_left] at hheader'
  have hpos : 0 < header.chunkSize + 16 := by omega
  -- each piece is the sealed chunk of its number
  have hchunk : ∀ (j : ℕ) (plain : Bytes), (iterDecrypt C svc' data userId).yielded[j]? = some plain →
      (reads chunkSize.toNat plaintext)[j]? = some plain ∧
        (sealed C (fileKey C svc salt userId) noncePrefix (buildAad userId) (reads chunkSize.toNat plaintext))[j]? =
          (reads (header.chunkSize + 16) (data.drop headerLength))[j]? := by
    intro j plain hj
    obtain ⟨hlt, piece, key, hpiece, hkey, hopen⟩ := hall j plain hj
    rw [hheader] at hkey
    rw [hheader'] at hopen
    have hinfix : piece <:+: data :=
      (infix_of_mem_reads (List.mem_of_getElem? hpiece)).trans (List.drop_suffix _ data).isInfix
    obtain ⟨-, -, hget, hget'⟩ := chunk_of_produced hA hchunks hlt hopen (hauth key hkey _ _ _ _ hinfix hopen)
    exact ⟨hget, by rw [hget', hpiece]⟩
  have hyielded : (iterDecrypt C svc' data userId).yielded =
      (reads chunkSize.toNat plaintext).take (iterDecrypt C svc' data userId).yielded.length := by
    refine eq_take_of_getElem? fun j plain hj => ?_
    exact (hchunk j plain hj).1
  have hpieces : reads (header.chunkSize + 16) (data.drop headerLength) =
      (sealed C (fileKey C svc salt userId) noncePrefix (buildAad userId) (reads chunkSize.toNat plaintext)).take
        (reads (header.chunkSize + 16) (data.drop headerLength)).length := by
    refine eq_take_of_getElem? fun j piece hj => ?_
    obtain ⟨plain, hplain⟩ : ∃ plain, (iterDecrypt C svc' data userId).yielded[j]? = some plain := by
      refine ⟨_, List.getElem?_eq_getElem ?_⟩
      rw [hlen]
      exact (List.getElem?_eq_some_iff.1 hj).1
    rw [(hchunk j plain hplain).2, hj]
  refine ⟨(iterDecrypt C svc' data userId).yielded.length, by rw [← hyielded], ?_⟩
  rw [hlen, ← hpieces, flatten_reads hpos]

end Changed

/-! ## Known answers -/

section Concrete

def someSalt : Bytes := [1, 2, 3, 4, 5, 6, 7, 8, 9, 10, 11, 12, 13, 14, 15, 16]

def somePrefix : Bytes := [0xaa, 0xaa, 0xaa, 0xaa, 0xaa, 0xaa, 0xaa, 0xaa]

def oldMaster : Bytes := utf8 "AAAAAAAAAAAAAAAAAAAAAAAAAAAAAAAAAAAAAAAAAAA="

def newMaster : Bytes := utf8 "AQEBAQEBAQEBAQEBAQEBAQEBAQEBAQEBAQEBAQEBAQE="

/-- HKDF of the old master key for user 7. -/
def oldKey : Bytes :=
  [0xd9, 0x0d, 0x1c, 0xe4, 0x25, 0x11, 0x90, 0x28, 0x95, 0x9d, 0xce, 0xfd, 0xff, 0xcb, 0x57, 0x4f, 0xeb, 0x03, 0x8e,
    0x6f, 0xdc, 0x39, 0x4a, 0xcf, 0xe3, 0xf7, 0x8d, 0x11, 0x74, 0x21, 0x6d, 0x19]

/-- HKDF of the new one. -/
def newKey : Bytes :=
  [0x41, 0x87, 0xbe, 0xec, 0xd3, 0xc3, 0x39, 0xc9, 0xfa, 0xaa, 0x57, 0x7a, 0xe1, 0xe6, 0x19, 0x01, 0x94, 0x5f, 0xe6,
    0x48, 0xdf, 0x39, 0xd1, 0xa9, 0xa6, 0x4e, 0x7e, 0xd3, 0xba, 0x39, 0x8f, 0x40]

/-- A text in two chunks, of four bytes and of two. -/
def someChunks : List Bytes := [[0x68, 0x65, 0x6c, 0x6c], [0x6f, 0x21]]

/-- AES-256-GCM of the first chunk under the old key. -/
def firstSealed : Bytes :=
  [0xb9, 0xce, 0x4a, 0xe5, 0x88, 0x98, 0xe1, 0x7d, 0x9f, 0x45, 0x4c, 0xd7, 0xcd, 0x65, 0xe8, 0xa2, 0x4a, 0x22, 0x82, 0x66]

def secondSealed : Bytes :=
  [0xe1, 0xb7, 0x97, 0xc6, 0x03, 0x2f, 0x24, 0x84, 0x8b, 0xfc, 0x7c, 0xe7, 0xa4, 0xa4, 0x74, 0xa3, 0xb8, 0x11]

/-- And of the whole text in one chunk. -/
def wholeSealed : Bytes :=
  [0xb9, 0xce, 0x4a, 0xe5, 0xc2, 0x03, 0x62, 0x4e, 0xe5, 0x18, 0x46, 0x53, 0x9b, 0x67, 0x57, 0xd0, 0x78, 0x1c, 0x1c, 0xc5,
    0x58, 0x01]

def someAnswers : List KnownAnswer :=
  [⟨oldKey, nonceOf somePrefix 0, buildAad "7", [0x68, 0x65, 0x6c, 0x6c], firstSealed⟩,
    ⟨oldKey, nonceOf somePrefix 1, buildAad "7", [0x6f, 0x21], secondSealed⟩,
    ⟨oldKey, nonceOf somePrefix 0, buildAad "7", someChunks.flatten, wholeSealed⟩]

def someCrypto : Crypto where
  hkdf salt info ikm :=
    if salt = someSalt ∧ info = utf8 "7" then if ikm = oldMaster then oldKey else if ikm = newMaster then newKey else []
    else []
  aesGcm := .ofAnswers someAnswers

theorem someAnswers_ok : AnswersOk [oldKey, newKey] someAnswers where
  inj := by decide
  length := by decide
  known := by decide
  unmarked := by decide

/-- A service whose current master key is the old one, and one after the rotation. -/
def writer : FileEncryptionService := ⟨oldMaster, []⟩

def rotated : FileEncryptionService := ⟨newMaster, [oldMaster]⟩

theorem oldKey_eq : fileKey someCrypto writer someSalt "7" = oldKey := by decide

theorem newKey_eq : deriveStreamKey someCrypto someSalt "7" rotated.masterKey = newKey := by decide

theorem someChunks_read : reads 4 someChunks.flatten = someChunks :=
  reads_flatten (.cons rfl (by decide) (.last (by decide) (by decide)))

theorem rotated_rejects : ∀ other ∈ rotated.masterKeys,
    deriveStreamKey someCrypto someSalt "7" other ≠ fileKey someCrypto writer someSalt "7" →
      someCrypto.aesGcm.Rejects (fileKey someCrypto writer someSalt "7") (deriveStreamKey someCrypto someSalt "7" other) := by
  intro other hother hne
  rcases List.mem_cons.1 hother with rfl | hother
  · rw [oldKey_eq, newKey_eq]
    exact ofAnswers_rejects someAnswers_ok (by decide) (by decide) (by decide)
  · obtain rfl := List.mem_singleton.1 hother
    exact absurd rfl hne

theorem decryptStream_encryptStream_rotated :
    ∃ cipher, encryptStream someCrypto writer someSalt somePrefix someChunks.flatten "7" 4 = .ok cipher ∧
      decryptStream someCrypto rotated cipher "7" = (someChunks.flatten, .ok ()) := by
  refine decryptStream_encryptStream (ofAnswers_lawful someAnswers_ok) (by decide) rotated_rejects (by decide) (by decide)
    (by decide) (by decide) ?_
  show (reads 4 someChunks.flatten).length ≤ 2 ^ 32
  rw [someChunks_read]
  decide

/-- The file, and the file cut after its first chunk. -/
def wholeFile : Bytes := stream.header ⟨4, someSalt, somePrefix⟩ ++ [firstSealed, secondSealed].flatten

def cutFile : Bytes := stream.header ⟨4, someSalt, somePrefix⟩ ++ firstSealed

theorem encryptStream_wholeFile :
    encryptStream someCrypto writer someSalt somePrefix someChunks.flatten "7" 4 = .ok wholeFile := by
  have hchunks : (reads (4 : ℤ).toNat someChunks.flatten).length ≤ 2 ^ 32 := by
    show (reads 4 someChunks.flatten).length ≤ 2 ^ 32
    rw [someChunks_read]
    decide
  rw [encryptStream_ok (by decide) (by decide) hchunks]
  show Except.ok (encryptedFile someCrypto writer someSalt somePrefix someChunks.flatten "7" 4) = _
  rw [encryptedFile, someChunks_read]
  decide

theorem decryptBytes_cutFile : decryptBytes someCrypto writer cutFile "7" = .ok [0x68, 0x65, 0x6c, 0x6c] := by
  have hparse : stream.parse cutFile = .ok ⟨4, someSalt, somePrefix⟩ := by decide
  have hfirst : (cutFile.drop headerLength).take (4 + 16) = firstSealed := by decide
  have hrest : (cutFile.drop headerLength).drop (4 + 16) = [] := by decide
  have hselect : selectKey someCrypto writer ⟨4, someSalt, somePrefix⟩ "7" firstSealed =
      some (oldKey, [0x68, 0x65, 0x6c, 0x6c]) := by decide
  unfold decryptBytes iterDecrypt
  rw [hparse]
  dsimp only
  rw [hfirst, hrest, if_neg (by decide), hselect]
  dsimp only
  rw [chunkLoop_eq, reads_nil]
  rfl

theorem cutFile_unforged : someCrypto.aesGcm.Unforged (writer.masterKeys.map (deriveStreamKey someCrypto someSalt "7"))
    (Produced someCrypto (fileKey someCrypto writer someSalt "7") somePrefix (buildAad "7") (reads 4 someChunks.flatten))
    cutFile := by
  intro key hkey nonce aad cipher plain hinfix hopen
  rw [oldKey_eq, someChunks_read]
  obtain rfl : key = oldKey := List.mem_singleton.1 hkey
  rcases ofAnswers_decrypt hopen with ⟨a, ha, ⟨-, rfl, rfl⟩, rfl, rfl⟩ | rfl
  · simp only [someAnswers, List.mem_cons, List.not_mem_nil, or_false] at ha
    rcases ha with rfl | rfl | rfl
    · exact ⟨rfl, rfl, 0, _, rfl, rfl, by decide⟩
    · exact ⟨rfl, rfl, 1, _, rfl, rfl, by decide⟩
    · exact absurd hinfix (by decide)
  · have hmark : ¬ keyMark oldKey <:+: cutFile := by decide
    exact absurd ((List.suffix_append _ _).isInfix.trans hinfix) hmark

theorem decryptBytes_leading_cut : ∃ k, ([0x68, 0x65, 0x6c, 0x6c] : Bytes) = (someChunks.take k).flatten := by
  obtain ⟨k, hk, -⟩ := decryptBytes_leading (ofAnswers_lawful someAnswers_ok) rfl rfl
    encryptStream_wholeFile (by decide) cutFile_unforged decryptBytes_cutFile
  refine ⟨k, ?_⟩
  have hread : reads (4 : ℤ).toNat someChunks.flatten = someChunks := someChunks_read
  rw [hread] at hk
  exact hk

/-- A file cut at the end of a chunk decrypts to the beginning of its text. -/
theorem beginning_returned : ¬ ∀ (C : Crypto) (svc : FileEncryptionService) (salt noncePrefix plaintext : Bytes)
    (userId : String) (chunkSize : ℤ) (cipher data out : Bytes), C.aesGcm.Lawful → salt.length = saltLength →
    noncePrefix.length = noncePrefixLength →
    encryptStream C svc salt noncePrefix plaintext userId chunkSize = .ok cipher → data ≠ cipher →
    saltAndPrefix data = saltAndPrefix cipher →
    C.aesGcm.Unforged (svc.masterKeys.map (deriveStreamKey C salt userId))
      (Produced C (fileKey C svc salt userId) noncePrefix (buildAad userId) (reads chunkSize.toNat plaintext)) data →
    decryptBytes C svc data userId = .ok out → out = plaintext := by
  intro h
  have hout := h someCrypto writer someSalt somePrefix someChunks.flatten "7" 4 wholeFile cutFile
    [0x68, 0x65, 0x6c, 0x6c] (ofAnswers_lawful someAnswers_ok) rfl rfl encryptStream_wholeFile (by decide) (by decide)
    cutFile_unforged decryptBytes_cutFile
  revert hout
  decide

end Concrete

end Transform.Security
