import Mathlib.Algebra.Order.Floor.Div
import Transform.Security.AtRest

/-!
# Security.PartialReads — the front of a file at rest

`decrypt_prefix` decrypts the chunks that cover a number of bytes of the text, and no more; `DecryptingObjectReader` reads
as much of an object as that needs, and tells from the length of what it gets whether that was all.

* `decryptPrefix_eq`: what is decrypted of a file cut anywhere, and how many chunks are.
* `readObject_contents`: the reader returns the front of the file's contents.
-/

namespace Transform.Security

open Lib

/-! ## The chunks that are needed -/

section Definitions

variable (C : Crypto) (svc : FileEncryptionService)

/-- How much of a ciphertext is decrypted for so many bytes of its text. -/
def prefixLength (length chunkSize maxPlaintextBytes : ℕ) (completeObject : Bool) : ℕ :=
  let complete := (length - headerLength) / (chunkSize + 16)
  let usable := if completeObject then length else headerLength + complete * (chunkSize + 16)
  let chunksNeeded := (maxPlaintextBytes + chunkSize - 1) / chunkSize
  min usable (headerLength + chunksNeeded * (chunkSize + 16))

/-- The chunks that `decrypt_prefix` decrypts. -/
def prefixChunks (cipher : Bytes) (userId : String) (maxPlaintextBytes : ℕ) (completeObject : Bool) :
    Generated EncryptionError Bytes :=
  if cipher.length < headerLength ∨ cipher.take 5 ≠ stream.magic then .raise (.valueError stream.badHeader)
  else
    let chunkSize := ofBigEndian ((cipher.drop 6).take 4)
    if chunkSize = 0 then .raise (.valueError "Invalid encryption chunk size")
    else iterDecrypt C svc (cipher.take (prefixLength cipher.length chunkSize maxPlaintextBytes completeObject)) userId

/-- `decrypt_prefix`. -/
def decryptPrefix (cipher : Bytes) (userId : String) (maxPlaintextBytes : ℤ) (completeObject : Bool := false) :
    Except EncryptionError Bytes :=
  if maxPlaintextBytes ≤ 0 then .ok []
  else (prefixChunks C svc cipher userId maxPlaintextBytes.toNat completeObject).joined.map (·.take maxPlaintextBytes.toNat)

end Definitions

variable {C : Crypto} {svc svc' : FileEncryptionService} {salt noncePrefix plaintext : Bytes} {userId : String}

section Cut

variable {chunkSize n k : ℕ}

/-- A file cut after `m` of its chunks. -/
theorem take_encryptedFile (hA : C.aesGcm.Lawful) (hsalt : salt.length = saltLength)
    (hnonce : noncePrefix.length = noncePrefixLength) (hpos : 1 ≤ chunkSize) (m : ℕ) :
    (encryptedFile C svc salt noncePrefix plaintext userId chunkSize).take (headerLength + m * (chunkSize + 16)) =
      stream.header ⟨chunkSize, salt, noncePrefix⟩ ++
        (sealed C (fileKey C svc salt userId) noncePrefix (buildAad userId) ((reads chunkSize plaintext).take m)).flatten := by
  have hcut := sealed_isCut hA (reads_isCut hpos plaintext) (fileKey C svc salt userId) noncePrefix (buildAad userId)
  have hlength : (stream.header ⟨chunkSize, salt, noncePrefix⟩).length = headerLength := length_header rfl ⟨hsalt, hnonce⟩
  unfold encryptedFile
  rw [← hlength, List.take_length_add_append, take_flatten hcut]
  unfold sealed
  rw [take_numbered]

theorem length_encryptedFile (hA : C.aesGcm.Lawful) (hsalt : salt.length = saltLength)
    (hnonce : noncePrefix.length = noncePrefixLength) (hpos : 1 ≤ chunkSize) :
    (encryptedFile C svc salt noncePrefix plaintext userId chunkSize).length =
      headerLength + (plaintext.length + tagLength * (reads chunkSize plaintext).length) := by
  have hlength : (stream.header ⟨chunkSize, salt, noncePrefix⟩).length = headerLength := length_header rfl ⟨hsalt, hnonce⟩
  have hsealed : ∀ i chunk, (C.aesGcm.encrypt (fileKey C svc salt userId) (nonceOf noncePrefix i) (buildAad userId)
      chunk).length = chunk.length + tagLength := fun i chunk => hA.length_encrypt _ _ _ _
  unfold encryptedFile sealed
  rw [List.length_append, hlength, length_flatten_numbered hsealed, flatten_reads hpos]

theorem prefixChunks_of_cut (hsalt : salt.length = saltLength) (hnonce : noncePrefix.length = noncePrefixLength)
    (hpos : 1 ≤ chunkSize) (hfits : chunkSize < 2 ^ 32) (hk : headerLength ≤ k)
    (hkl : k ≤ (encryptedFile C svc salt noncePrefix plaintext userId chunkSize).length) (complete : Bool) :
    prefixChunks C svc' ((encryptedFile C svc salt noncePrefix plaintext userId chunkSize).take k) userId n complete =
      iterDecrypt C svc' ((encryptedFile C svc salt noncePrefix plaintext userId chunkSize).take
        (min (prefixLength k chunkSize n complete) k)) userId := by
  have hlength : (stream.header ⟨chunkSize, salt, noncePrefix⟩).length = headerLength := length_header rfl ⟨hsalt, hnonce⟩
  have hfront : ((encryptedFile C svc salt noncePrefix plaintext userId chunkSize).take k).take headerLength =
      stream.header ⟨chunkSize, salt, noncePrefix⟩ := by
    rw [List.take_take, Nat.min_eq_left hk]
    exact List.take_left' hlength
  have hlen : ((encryptedFile C svc salt noncePrefix plaintext userId chunkSize).take k).length = k := by
    rw [List.length_take, Nat.min_eq_left hkl]
  have hmagic : ((encryptedFile C svc salt noncePrefix plaintext userId chunkSize).take k).take 5 = stream.magic := by
    have hmagic := take_header (f := stream) (h := ⟨chunkSize, salt, noncePrefix⟩) rfl
    rw [← hfront, List.take_take] at hmagic
    exact hmagic
  have hsize : ofBigEndian ((((encryptedFile C svc salt noncePrefix plaintext userId chunkSize).take k).drop 6).take 4) =
      chunkSize := by
    have hbytes := chunkSize_header (f := stream) (h := ⟨chunkSize, salt, noncePrefix⟩) rfl
    rw [← hfront, List.drop_take, List.take_take] at hbytes
    have hvalue := congrArg ofBigEndian hbytes
    rw [ofBigEndian_bigEndian] at hvalue
    exact hvalue.trans (Nat.mod_eq_of_lt hfits)
  unfold prefixChunks
  rw [if_neg (by rw [hlen, hmagic]; simpa using hk)]
  simp only [hsize, hlen]
  rw [if_neg (by omega), List.take_take]

theorem min_prefixLength (hk : headerLength ≤ k) : min (prefixLength k chunkSize n false) k =
    headerLength + min ((k - headerLength) / (chunkSize + 16)) ((n + chunkSize - 1) / chunkSize) * (chunkSize + 16) := by
  have hle := Nat.div_mul_le_self (k - headerLength) (chunkSize + 16)
  unfold prefixLength
  dsimp only
  rw [if_neg (by simp)]
  generalize (k - headerLength) / (chunkSize + 16) = complete at *
  generalize (n + chunkSize - 1) / chunkSize = needed
  rcases Nat.le_total complete needed with h | h
  · have hmul := Nat.mul_le_mul_right (chunkSize + 16) h
    rw [Nat.min_eq_left h]
    omega
  · have hmul := Nat.mul_le_mul_right (chunkSize + 16) h
    rw [Nat.min_eq_right h]
    omega

theorem joined_leading (hpos : 1 ≤ chunkSize) (m : ℕ) :
    (⟨(reads chunkSize plaintext).take m, .ok ()⟩ : Generated EncryptionError Bytes).joined =
      .ok (plaintext.take (m * chunkSize)) := by
  have hflatten := take_flatten (reads_isCut hpos plaintext) m
  rw [flatten_reads hpos] at hflatten
  rw [hflatten]
  rfl

end Cut

/-! ## What is decrypted -/

section Decrypted

/-- What a service needs to decrypt the files of another: their master key, and keys of its own that open nothing else. -/
structure Opens (C : Crypto) (svc svc' : FileEncryptionService) (salt : Bytes) (userId : String) : Prop where
  lawful : C.aesGcm.Lawful
  master : svc.masterKey ∈ svc'.masterKeys
  wrong : ∀ other ∈ svc'.masterKeys, deriveStreamKey C salt userId other ≠ fileKey C svc salt userId →
    C.aesGcm.Rejects (fileKey C svc salt userId) (deriveStreamKey C salt userId other)

variable {chunkSize n k : ℕ}

theorem iterDecrypt_cut (ho : Opens C svc svc' salt userId) (hsalt : salt.length = saltLength)
    (hnonce : noncePrefix.length = noncePrefixLength) (hpos : 1 ≤ chunkSize) (hfits : chunkSize < 2 ^ 32)
    (hchunks : (reads chunkSize plaintext).length ≤ 2 ^ 32) (m : ℕ) :
    iterDecrypt C svc' ((encryptedFile C svc salt noncePrefix plaintext userId chunkSize).take
      (headerLength + m * (chunkSize + 16))) userId = ⟨(reads chunkSize plaintext).take m, .ok ()⟩ := by
  rw [take_encryptedFile ho.lawful hsalt hnonce hpos]
  refine iterDecrypt_sealed ho.lawful ho.master ho.wrong hsalt hnonce hfits (isCut_take (reads_isCut hpos plaintext) m) ?_
  rw [List.length_take]
  omega

theorem prefixChunks_cut (ho : Opens C svc svc' salt userId) (hsalt : salt.length = saltLength)
    (hnonce : noncePrefix.length = noncePrefixLength) (hpos : 1 ≤ chunkSize) (hfits : chunkSize < 2 ^ 32)
    (hchunks : (reads chunkSize plaintext).length ≤ 2 ^ 32) (hk : headerLength ≤ k)
    (hkl : k ≤ (encryptedFile C svc salt noncePrefix plaintext userId chunkSize).length) :
    prefixChunks C svc' ((encryptedFile C svc salt noncePrefix plaintext userId chunkSize).take k) userId n false =
      ⟨(reads chunkSize plaintext).take (min ((k - headerLength) / (chunkSize + 16)) ((n + chunkSize - 1) / chunkSize)),
        .ok ()⟩ := by
  rw [prefixChunks_of_cut hsalt hnonce hpos hfits hk hkl, min_prefixLength hk,
    iterDecrypt_cut ho hsalt hnonce hpos hfits hchunks]

theorem prefixChunks_whole (ho : Opens C svc svc' salt userId) (hsalt : salt.length = saltLength)
    (hnonce : noncePrefix.length = noncePrefixLength) (hpos : 1 ≤ chunkSize) (hfits : chunkSize < 2 ^ 32)
    (hchunks : (reads chunkSize plaintext).length ≤ 2 ^ 32) :
    prefixChunks C svc' (encryptedFile C svc salt noncePrefix plaintext userId chunkSize) userId n true =
      ⟨(reads chunkSize plaintext).take ((n + chunkSize - 1) / chunkSize), .ok ()⟩ := by
  have hlength := @length_encryptedFile _ svc _ _ plaintext userId _ ho.lawful hsalt hnonce hpos
  have hcut := @prefixChunks_of_cut C svc svc' _ _ plaintext userId _ n _
    hsalt hnonce hpos hfits (by omega) (Nat.le_refl _) true
  rw [List.take_length] at hcut
  rw [hcut, ← iterDecrypt_cut ho hsalt hnonce hpos hfits hchunks]
  congr 1
  unfold prefixLength
  dsimp only
  rw [if_pos rfl, Nat.min_comm, ← Nat.min_assoc, Nat.min_self, Nat.min_comm, ← List.take_take, List.take_length]

/-- The chunks that cover `n` bytes hold them. -/
theorem le_needed (hpos : 1 ≤ chunkSize) : n ≤ (n + chunkSize - 1) / chunkSize * chunkSize := by
  have hmod := Nat.div_add_mod (n + chunkSize - 1) chunkSize
  have hlt := Nat.mod_lt (n + chunkSize - 1) hpos
  rw [Nat.mul_comm] at hmod
  omega

theorem decryptPrefix_cut (ho : Opens C svc svc' salt userId) (hsalt : salt.length = saltLength)
    (hnonce : noncePrefix.length = noncePrefixLength) (hpos : 1 ≤ chunkSize) (hfits : chunkSize < 2 ^ 32)
    (hchunks : (reads chunkSize plaintext).length ≤ 2 ^ 32) (hk : headerLength ≤ k)
    (hkl : k ≤ (encryptedFile C svc salt noncePrefix plaintext userId chunkSize).length) {m : ℤ} (hm : 0 < m) :
    decryptPrefix C svc' ((encryptedFile C svc salt noncePrefix plaintext userId chunkSize).take k) userId m =
      .ok (plaintext.take (min m.toNat (chunkSize * ((k - headerLength) / (chunkSize + tagLength))))) := by
  rw [decryptPrefix, if_neg (by omega), prefixChunks_cut ho hsalt hnonce hpos hfits hchunks hk hkl, joined_leading hpos]
  refine congrArg Except.ok ?_
  show (plaintext.take (min ((k - headerLength) / (chunkSize + 16)) _ * chunkSize)).take m.toNat =
    plaintext.take (min m.toNat (chunkSize * ((k - headerLength) / (chunkSize + 16))))
  have hneeded := le_needed (n := m.toNat) hpos
  rw [List.take_take, Nat.mul_comm chunkSize]
  generalize (k - headerLength) / (chunkSize + 16) = complete
  rcases Nat.le_total complete ((m.toNat + chunkSize - 1) / chunkSize) with h | h
  · rw [Nat.min_eq_left h]
  · have hmul := Nat.mul_le_mul_right chunkSize h
    rw [Nat.min_eq_right h, Nat.min_eq_left hneeded, Nat.min_eq_left (Nat.le_trans hneeded hmul)]

theorem decryptPrefix_whole (ho : Opens C svc svc' salt userId) (hsalt : salt.length = saltLength)
    (hnonce : noncePrefix.length = noncePrefixLength) (hpos : 1 ≤ chunkSize) (hfits : chunkSize < 2 ^ 32)
    (hchunks : (reads chunkSize plaintext).length ≤ 2 ^ 32) {m : ℤ} (hm : 0 < m) :
    decryptPrefix C svc' (encryptedFile C svc salt noncePrefix plaintext userId chunkSize) userId m true =
      .ok (plaintext.take m.toNat) := by
  rw [decryptPrefix, if_neg (by omega), prefixChunks_whole ho hsalt hnonce hpos hfits hchunks, joined_leading hpos]
  refine congrArg Except.ok ?_
  show (plaintext.take (_ * chunkSize)).take m.toNat = _
  rw [List.take_take, Nat.min_eq_left (le_needed hpos)]

theorem decryptBytes_encryptedFile (ho : Opens C svc svc' salt userId) (hsalt : salt.length = saltLength)
    (hnonce : noncePrefix.length = noncePrefixLength) (hpos : 1 ≤ chunkSize) (hfits : chunkSize < 2 ^ 32)
    (hchunks : (reads chunkSize plaintext).length ≤ 2 ^ 32) :
    decryptBytes C svc' (encryptedFile C svc salt noncePrefix plaintext userId chunkSize) userId = .ok plaintext := by
  unfold decryptBytes encryptedFile
  rw [iterDecrypt_sealed ho.lawful ho.master ho.wrong hsalt hnonce hfits (reads_isCut hpos plaintext) hchunks]
  exact congrArg Except.ok (flatten_reads hpos plaintext)

/-- **The front of a file**: of a file cut anywhere past its header, the text of the whole chunks that are left, as far as it
was asked for; of the whole file, the front of its text; and no more chunks are decrypted than cover it. -/
theorem decryptPrefix_eq (ho : Opens C svc svc' salt userId) (hsalt : salt.length = saltLength)
    (hnonce : noncePrefix.length = noncePrefixLength) {chunkSize : ℤ} {cipher : Bytes}
    (hcipher : encryptStream C svc salt noncePrefix plaintext userId chunkSize = .ok cipher) {n : ℤ} (hn : 0 < n) :
    (∀ k, headerLength ≤ k → k ≤ cipher.length →
      decryptPrefix C svc' (cipher.take k) userId n = .ok (plaintext.take (min n.toNat
        (chunkSize.toNat * ((k - headerLength) / (chunkSize.toNat + tagLength))))) ∧
      (prefixChunks C svc' (cipher.take k) userId n.toNat false).yielded.length ≤ n.toNat ⌈/⌉ chunkSize.toNat) ∧
    decryptPrefix C svc' cipher userId n true = .ok (plaintext.take n.toNat) ∧
    decryptPrefix C svc' cipher userId n true = (decryptBytes C svc' cipher userId).map (·.take n.toNat) ∧
    (prefixChunks C svc' cipher userId n.toNat true).yielded.length ≤ n.toNat ⌈/⌉ chunkSize.toNat := by
  obtain ⟨hpos, hchunks, rfl⟩ := encryptStream_inv hcipher
  have hfits : chunkSize.toNat < 2 ^ 32 := by
    have hlt := chunkSize_fits hcipher
    omega
  have hwhole := decryptPrefix_whole ho hsalt hnonce hpos hfits hchunks hn
  refine ⟨fun k hk hkl => ⟨decryptPrefix_cut ho hsalt hnonce hpos hfits hchunks hk hkl hn, ?_⟩, hwhole, ?_, ?_⟩
  · rw [prefixChunks_cut ho hsalt hnonce hpos hfits hchunks hk hkl, Nat.ceilDiv_eq_add_pred_div, List.length_take]
    exact Nat.le_trans (Nat.min_le_left _ _) (Nat.min_le_right _ _)
  · rw [hwhole, decryptBytes_encryptedFile ho hsalt hnonce hpos hfits hchunks]
    rfl
  · rw [prefixChunks_whole ho hsalt hnonce hpos hfits hchunks, Nat.ceilDiv_eq_add_pred_div, List.length_take]
    exact Nat.min_le_left _ _

theorem opens_rotated : Opens someCrypto writer rotated someSalt "7" :=
  ⟨ofAnswers_lawful someAnswers_ok, by decide, rotated_rejects⟩

/-- Of a file in two chunks, cut in the second. -/
theorem decryptPrefix_eq_rotated :
    decryptPrefix someCrypto rotated (wholeFile.take 60) "7" 6 = .ok [0x68, 0x65, 0x6c, 0x6c] := by
  have h := ((decryptPrefix_eq opens_rotated rfl rfl encryptStream_wholeFile (by decide : (0 : ℤ) < 6)).1 60 (by decide)
    (by decide)).1
  exact h

end Decrypted

/-! ## Reading objects -/

section Reader

/-- `raw[:maxBytes]`, a negative number counted from the end. -/
def firstBytes (raw : Bytes) : Option ℤ → Bytes
  | none => raw
  | some maxBytes => if maxBytes < 0 then raw.take (raw.length - maxBytes.natAbs) else raw.take maxBytes.toNat

def ciphertextSlack : ℤ := 64 * 1024

def ciphertextChunkSlack : ℤ := 1024 * 1024

/-- What the storage is asked for. -/
def readLimit (maxBytes : Option ℤ) : Option ℤ := maxBytes.map (· + ciphertextSlack + ciphertextChunkSlack)

def decryptRead (C : Crypto) (svc : FileEncryptionService) (raw : Bytes) (maxBytes : Option ℤ) (userId : String) :
    Except EncryptionError Bytes :=
  match maxBytes with
  | none => decryptBytes C svc raw userId
  | some bound => do
    let completeObject := (readLimit maxBytes).any fun limit => (raw.length : ℤ) < limit
    let plaintext ← decryptPrefix C svc raw userId bound completeObject
    if (plaintext.length : ℤ) < bound ∧ completeObject = false then
      .error (.valueError "The encrypted object's prefix could not be read completely.")
    else .ok plaintext

/-- `DecryptingObjectReader.read_object`, over what the storage returns for a key and a bound. -/
def readObject (C : Crypto) (storage : String → Option ℤ → Except EncryptionError Bytes)
    (encryption : Option FileEncryptionService) (objectKey : String) (maxBytes : Option ℤ) (userId : String) :
    Except EncryptionError Bytes := do
  let raw ← storage objectKey (readLimit maxBytes)
  match encryption with
  | none => .ok (firstBytes raw maxBytes)
  | some svc =>
    if raw.take 5 ≠ stream.magic then .ok (firstBytes raw maxBytes) else decryptRead C svc raw maxBytes userId

/-- How the contents of a file are stored: as they are, or encrypted for its owner with chunks of the default size. -/
inductive StoredAs (C : Crypto) (svc : FileEncryptionService) (encryption : Option FileEncryptionService)
    (userId : String) (contents : Bytes) : Bytes → Prop
  | plain (hmagic : contents.take 5 ≠ stream.magic) : StoredAs C svc encryption userId contents contents
  | encrypted {svc' : FileEncryptionService} {salt noncePrefix object : Bytes} (hservice : encryption = some svc')
      (ho : Opens C svc svc' salt userId) (hsalt : salt.length = saltLength) (hnonce : noncePrefix.length = noncePrefixLength)
      (h : encryptBytes C svc salt noncePrefix contents userId = .ok object) : StoredAs C svc encryption userId contents object

variable {storage : String → Option ℤ → Except EncryptionError Bytes} {encryption : Option FileEncryptionService}
  {objectKey : String} {contents object : Bytes} {maxBytes : Option ℤ}

theorem readLimit_some (m : ℤ) : readLimit (some m) = some (m + 1114112) := by
  refine congrArg some ?_
  show m + 64 * 1024 + 1024 * 1024 = m + 1114112
  omega

theorem firstBytes_limit {m : ℤ} (hm : 0 < m) (raw : Bytes) :
    firstBytes raw (readLimit (some m)) = raw.take (m.toNat + 1114112) := by
  rw [readLimit_some]
  refine (if_neg (by omega)).trans ?_
  congr 1
  omega

theorem firstBytes_some {m : ℤ} (hm : 0 < m) (raw : Bytes) : firstBytes raw (some m) = raw.take m.toNat :=
  if_neg (by omega)

theorem readObject_plain (hstorage : ∀ limit, storage objectKey limit = .ok (firstBytes contents limit))
    (hmagic : contents.take 5 ≠ stream.magic) (hmax : ∀ m ∈ maxBytes, 0 < m) :
    readObject C storage encryption objectKey maxBytes userId = .ok (firstBytes contents maxBytes) := by
  have hread : (firstBytes contents (readLimit maxBytes)).take 5 ≠ stream.magic ∧
      firstBytes (firstBytes contents (readLimit maxBytes)) maxBytes = firstBytes contents maxBytes := by
    cases maxBytes with
    | none => exact ⟨hmagic, rfl⟩
    | some m =>
      have hm := hmax m rfl
      rw [firstBytes_limit hm, firstBytes_some hm, firstBytes_some hm, List.take_take, List.take_take,
        Nat.min_eq_left (by omega), Nat.min_eq_left (by omega)]
      exact ⟨hmagic, rfl⟩
  unfold readObject
  rw [hstorage]
  cases encryption with
  | none => exact congrArg Except.ok hread.2
  | some svc => exact (if_pos hread.1).trans (congrArg Except.ok hread.2)

/-- Within the bound, a chunk more than what was asked for is whole. -/
theorem le_covered {m : ℕ} (hm : m ≤ 4000 * 1024 * 1024) :
    m ≤ 1048576 * ((m + 1114112 - headerLength) / (1048576 + tagLength)) := by
  show m ≤ 1048576 * ((m + 1114112 - 34) / (1048576 + 16))
  omega

/-- A file that reaches the bound of its read has what was asked for. -/
theorem le_length_contents {m : ℕ} (hm : m ≤ 4000 * 1024 * 1024)
    (hreached : m + 1114112 ≤ headerLength + (contents.length + tagLength * (reads 1048576 contents).length)) :
    m ≤ contents.length := by
  have hcut := reads_isCut (by decide : 0 < 1048576) contents
  change m + 1114112 ≤ 34 + (contents.length + 16 * (reads 1048576 contents).length) at hreached
  by_cases hnone : reads 1048576 contents = []
  · rw [hnone, List.length_nil] at hreached
    omega
  · have hlast := lt_length_flatten hcut hnone
    rw [flatten_reads (by decide)] at hlast
    omega

theorem toNat_defaultChunkSize : defaultChunkSize.toNat = 1048576 := rfl

theorem magic_encryptedFile {chunkSize k : ℕ} (hk : 5 ≤ k) :
    ((encryptedFile C svc salt noncePrefix plaintext userId chunkSize).take k).take 5 = stream.magic := by
  rw [List.take_take, Nat.min_eq_left hk]
  unfold encryptedFile Format.header
  simp only [List.append_assoc]
  exact List.take_left' rfl

theorem readObject_encrypted {raw : Bytes} (hraw : storage objectKey (readLimit maxBytes) = .ok raw)
    (hmagic : raw.take 5 = stream.magic) :
    readObject C storage (some svc) objectKey maxBytes userId = decryptRead C svc raw maxBytes userId := by
  unfold readObject
  rw [hraw]
  exact if_neg (not_not.2 hmagic)

/-- Less than the bound came back exactly where the object is shorter than it. -/
theorem lt_limit_iff {m : ℤ} {length : ℕ} (hm : 0 < m) :
    ((min (m.toNat + 1114112) length : ℕ) : ℤ) < m + 1114112 ↔ length < m.toNat + 1114112 := by
  omega

theorem decryptRead_encryptedFile (ho : Opens C svc svc' salt userId) (hsalt : salt.length = saltLength)
    (hnonce : noncePrefix.length = noncePrefixLength) (hchunks : (reads 1048576 contents).length ≤ 2 ^ 32) {m : ℤ}
    (hm : 0 < m) (hmax : m ≤ 4000 * 1024 * 1024) :
    decryptRead C svc' ((encryptedFile C svc salt noncePrefix contents userId 1048576).take (m.toNat + 1114112)) (some m)
      userId = .ok (contents.take m.toNat) := by
  have hpos : 1 ≤ 1048576 := Nat.le_add_left 1 1048575
  have hfits : 1048576 < 2 ^ 32 := by omega
  have hlength := @length_encryptedFile _ svc _ _ contents userId _ ho.lawful hsalt hnonce hpos
  unfold decryptRead
  dsimp only
  rw [readLimit_some, Option.any_some, List.length_take]
  by_cases hwhole : (encryptedFile C svc salt noncePrefix contents userId 1048576).length < m.toNat + 1114112
  · rw [decide_eq_true ((lt_limit_iff hm).2 hwhole), List.take_of_length_le (Nat.le_of_lt hwhole),
      decryptPrefix_whole ho hsalt hnonce hpos hfits hchunks hm]
    exact if_neg fun h => (by cases h.2)
  · have hcovered := le_covered (m := m.toNat) (Int.toNat_le.2 hmax)
    have hreached : m.toNat + 1114112 ≤ headerLength + (contents.length + tagLength * (reads 1048576 contents).length) := by
      rw [← hlength]
      exact Nat.le_of_not_lt hwhole
    have hcontents := le_length_contents (Int.toNat_le.2 hmax) hreached
    have hheader : headerLength ≤ m.toNat + 1114112 := by
      show 34 ≤ m.toNat + 1114112
      omega
    rw [decide_eq_false (mt (lt_limit_iff hm).1 hwhole),
      decryptPrefix_cut ho hsalt hnonce hpos hfits hchunks hheader (Nat.le_of_not_lt hwhole) hm, Nat.min_eq_left hcovered]
    refine if_neg fun h => ?_
    have hshort := h.1
    rw [List.length_take] at hshort
    omega

/-- **What is read**: the contents of the file, as far as they were asked for, however long the object is against what the
storage is asked for. -/
theorem readObject_contents (hstorage : ∀ limit, storage objectKey limit = .ok (firstBytes object limit))
    (hobject : StoredAs C svc encryption userId contents object)
    (hmax : ∀ m ∈ maxBytes, 0 < m ∧ m ≤ 4000 * 1024 * 1024) :
    readObject C storage encryption objectKey maxBytes userId = .ok (firstBytes contents maxBytes) := by
  cases hobject with
  | plain hmagic => exact readObject_plain hstorage hmagic fun m hm => (hmax m hm).1
  | @encrypted svc' salt noncePrefix object hservice ho hsalt hnonce h =>
    obtain ⟨hpos, hchunks, rfl⟩ := encryptStream_inv h
    rw [toNat_defaultChunkSize] at hpos hchunks hstorage
    subst hservice
    cases maxBytes with
    | none =>
      have hmagic : ((encryptedFile C svc salt noncePrefix contents userId 1048576).take 5).take 5 =
          stream.magic := magic_encryptedFile (Nat.le_refl 5)
      rw [List.take_take] at hmagic
      rw [readObject_encrypted (hstorage (readLimit none)) hmagic]
      exact decryptBytes_encryptedFile ho hsalt hnonce hpos (by omega) hchunks
    | some m =>
      obtain ⟨hm, hbound⟩ := hmax m rfl
      have hraw := hstorage (readLimit (some m))
      rw [firstBytes_limit hm] at hraw
      rw [readObject_encrypted hraw (magic_encryptedFile (by omega)), firstBytes_some hm]
      exact decryptRead_encryptedFile ho hsalt hnonce hchunks hm hbound

/-- Four bytes of a file that is stored encrypted. -/
theorem readObject_contents_rotated :
    ∃ object, encryptBytes someCrypto writer someSalt somePrefix someChunks.flatten "7" = .ok object ∧
      readObject someCrypto (fun _ limit => .ok (firstBytes object limit)) (some rotated) "uploads/1" (some 4) "7" =
        .ok [0x68, 0x65, 0x6c, 0x6c] := by
  have hread : reads 1048576 someChunks.flatten = [someChunks.flatten] :=
    @reads_flatten _ _ ([someChunks.flatten]) (.last (by decide) (by decide))
  have hchunks : (reads defaultChunkSize.toNat someChunks.flatten).length ≤ 2 ^ 32 := by
    show (reads 1048576 someChunks.flatten).length ≤ 2 ^ 32
    rw [hread]
    decide
  have hcipher : encryptBytes someCrypto writer someSalt somePrefix someChunks.flatten "7" = .ok _ :=
    encryptStream_ok (by decide) (by decide) hchunks
  have hmax : ∀ m ∈ some (4 : ℤ), 0 < m ∧ m ≤ 4000 * 1024 * 1024 := by decide
  exact ⟨_, hcipher, readObject_contents (fun _ => rfl) (.encrypted rfl opens_rotated rfl rfl hcipher) hmax⟩

end Reader

end Transform.Security
