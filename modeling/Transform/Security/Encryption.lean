import Mathlib.Data.Int.Notation
import Transform.Lib.Aead
import Transform.Lib.Chunked

/-!
# Security.Encryption — encrypted files

The at-rest format of the worker (`TRENC`) and the decoder of the browser's format (`FENCR`).  Both are a header of 34
bytes, which carries the chunk size, a salt and a nonce prefix, and the chunks of the file, each sealed under a nonce
that ends in its number.  HKDF and AES-GCM are parameters.
-/

namespace Transform.Security

open Lib

/-! ## Errors and primitives -/

section Primitives

inductive EncryptionError
  | valueError (message : String)
  | overflowError (message : String)
  | invalidTag
  deriving DecidableEq, Repr

structure Crypto where
  hkdf : (salt info ikm : Bytes) → Bytes
  aesGcm : Aead

/-- `n.to_bytes(4, "big")`. -/
def toBytes4 (n : ℕ) : Except EncryptionError Bytes :=
  if 2 ^ 32 ≤ n then .error (.overflowError "int too big to convert") else .ok (bigEndian 4 n)

/-- The prefix of a file, and the number of a chunk. -/
def nonceOf (noncePrefix : Bytes) (counter : ℕ) : Bytes := noncePrefix ++ bigEndian 4 counter

end Primitives

/-! ## The header -/

section Headers

def saltLength : ℕ := 16

def noncePrefixLength : ℕ := 8

def headerLength : ℕ := 5 + 1 + 4 + saltLength + noncePrefixLength

/-- The magic and the version of a format, and what its decoder says of a header it does not know. -/
structure Format where
  magic : Bytes
  version : UInt8
  badHeader : String
  unsupported : String

/-- The format of files at rest: `TRENC`. -/
def stream : Format where
  magic := [0x54, 0x52, 0x45, 0x4e, 0x43]
  version := 0x01
  badHeader := "Not a Transform-encrypted file (bad header)"
  unsupported := "Unsupported encryption format version: "

/-- The format of the browser: `FENCR`. -/
def fencr : Format where
  magic := [0x46, 0x45, 0x4e, 0x43, 0x52]
  version := 0x01
  badHeader := "Not a client-encrypted (FENCR) blob (bad header)"
  unsupported := "Unsupported FENCR version: "

/-- What a header carries. -/
structure Header where
  chunkSize : ℕ
  salt : Bytes
  noncePrefix : Bytes
  deriving DecidableEq

def Format.header (f : Format) (h : Header) : Bytes :=
  f.magic ++ f.version :: bigEndian 4 h.chunkSize ++ h.salt ++ h.noncePrefix

/-- Reads the header off the front of a file. -/
def Format.parse (f : Format) (src : Bytes) : Except EncryptionError Header :=
  let header := src.take headerLength
  if header.length ≠ headerLength ∨ header.take 5 ≠ f.magic then .error (.valueError f.badHeader)
  else if header.getD 5 0 ≠ f.version then
    .error (.valueError (f.unsupported ++ toString (header.getD 5 0).toNat))
  else .ok
    { chunkSize := ofBigEndian ((header.drop 6).take 4)
      salt := (header.drop 10).take saltLength
      noncePrefix := (header.drop 26).take noncePrefixLength }

end Headers

/-! ## Files at rest -/

section AtRest

/-- The current master key, and older ones. -/
structure FileEncryptionService where
  masterKey : Bytes
  previousMasterKeys : List Bytes := []

/-- The keys that a decryption tries, in order. -/
def FileEncryptionService.masterKeys (svc : FileEncryptionService) : List Bytes :=
  svc.masterKey :: svc.previousMasterKeys

variable (C : Crypto) (svc : FileEncryptionService)

/-- The associated data of a user's files. -/
def buildAad (userId : String) : Bytes := utf8 "transform-v1:" ++ utf8 userId

/-- The key of a file, under a master key. -/
def deriveStreamKey (salt : Bytes) (userId : String) (masterKey : Bytes) : Bytes :=
  C.hkdf salt (utf8 userId) masterKey

/-- Seal a chunk of a file at rest. -/
def encryptChunk (key noncePrefix aad : Bytes) (counter : ℕ) (chunk : Bytes) : Except EncryptionError Bytes :=
  if 2 ^ 32 ≤ counter then .error (.overflowError "File too large: chunk counter exhausted")
  else .ok (C.aesGcm.encrypt key (nonceOf noncePrefix counter) aad chunk)

/-- `encrypt_stream`, with the salt and the nonce prefix it draws. -/
def encryptStream (salt noncePrefix src : Bytes) (userId : String) (chunkSize : ℤ) : Except EncryptionError Bytes := do
  if chunkSize ≤ 0 then .error (.valueError "chunk_size must be a positive integer")
  let key := deriveStreamKey C salt userId svc.masterKey
  let size ← toBytes4 chunkSize.toNat
  let chunks ← (chunkLoop (encryptChunk C key noncePrefix (buildAad userId)) chunkSize.toNat src 0).joined
  .ok (stream.magic ++ stream.version :: size ++ salt ++ noncePrefix ++ chunks)

/-- Open a chunk of a file at rest. -/
def decryptChunk (key noncePrefix aad : Bytes) (counter : ℕ) (chunk : Bytes) : Except EncryptionError Bytes := do
  let number ← toBytes4 counter
  match C.aesGcm.decrypt key (noncePrefix ++ number) aad chunk with
  | none => .error .invalidTag
  | some plain => .ok plain

/-- The first master key under which the first chunk opens: the key of the file, and the chunk. -/
def selectKey (h : Header) (userId : String) (first : Bytes) : Option (Bytes × Bytes) :=
  svc.masterKeys.findSome? fun masterKey =>
    let key := deriveStreamKey C h.salt userId masterKey
    (C.aesGcm.decrypt key (nonceOf h.noncePrefix 0) (buildAad userId) first).map fun plain => (key, plain)

/-- `iter_decrypt`. -/
def iterDecrypt (src : Bytes) (userId : String) : Generated EncryptionError Bytes :=
  match stream.parse src with
  | .error e => .raise e
  | .ok h =>
    let body := src.drop headerLength
    let first := body.take (h.chunkSize + 16)
    if first = [] then .done
    else match selectKey C svc h userId first with
      | none => .raise (.valueError "Failed to decrypt: no matching key (tampered data or unknown key).")
      | some (key, plain) =>
        (chunkLoop (decryptChunk C key h.noncePrefix (buildAad userId)) (h.chunkSize + 16)
          (body.drop (h.chunkSize + 16)) 1).cons plain

/-- `decrypt_stream`: what is written, and how it ends. -/
def decryptStream (src : Bytes) (userId : String) : Bytes × Except EncryptionError Unit :=
  let plain := iterDecrypt C svc src userId
  (plain.yielded.flatten, plain.outcome)

def defaultChunkSize : ℤ := 1024 * 1024

def encryptBytes (salt noncePrefix data : Bytes) (userId : String) : Except EncryptionError Bytes :=
  encryptStream C svc salt noncePrefix data userId defaultChunkSize

def decryptBytes (cipher : Bytes) (userId : String) : Except EncryptionError Bytes :=
  (iterDecrypt C svc cipher userId).joined

end AtRest

/-! ## The browser's files -/

section Fencr

variable (C : Crypto)

def fencrAad : Bytes := utf8 "transform-client-v1"

def fencrHkdfInfo : Bytes := utf8 "transform-client-v1:enc"

def deriveFencrFileKey (salt dataKey : Bytes) : Bytes := C.hkdf salt fencrHkdfInfo dataKey

/-- Open a chunk of a browser's file. -/
def decryptFencrChunk (key noncePrefix : Bytes) (counter : ℕ) (chunk : Bytes) : Except EncryptionError Bytes :=
  if 2 ^ 32 ≤ counter then .error (.overflowError "File too large: FENCR chunk counter exhausted")
  else match C.aesGcm.decrypt key (nonceOf noncePrefix counter) fencrAad chunk with
    | none => .error .invalidTag
    | some plain => .ok plain

/-- `iter_decrypt_fencr`. -/
def iterDecryptFencr (src dataKey : Bytes) : Generated EncryptionError Bytes :=
  match fencr.parse src with
  | .error e => .raise e
  | .ok h =>
    if h.chunkSize = 0 then .raise (.valueError "Invalid FENCR chunk_size (must be positive)")
    else chunkLoop (decryptFencrChunk C (deriveFencrFileKey C h.salt dataKey) h.noncePrefix) (h.chunkSize + tagLength)
      (src.drop headerLength) 0

def decryptFencrBytes (blob dataKey : Bytes) : Except EncryptionError Bytes := (iterDecryptFencr C blob dataKey).joined

end Fencr

/-! ## Reading a header back -/

section HeaderFacts

variable {f : Format} {h : Header} {src : Bytes}

/-- The parts of a header have their fixed lengths. -/
structure Header.WellFormed (h : Header) : Prop where
  salt : h.salt.length = saltLength
  noncePrefix : h.noncePrefix.length = noncePrefixLength

theorem length_header (hf : f.magic.length = 5) (hh : h.WellFormed) : (f.header h).length = headerLength := by
  simp [Format.header, hf, hh.salt, hh.noncePrefix, headerLength]
  omega

theorem take_header (hf : f.magic.length = 5) : (f.header h).take 5 = f.magic := by
  rw [Format.header, List.append_assoc, List.append_assoc]
  exact List.take_left' hf

theorem chunkSize_header (hf : f.magic.length = 5) : ((f.header h).drop 6).take 4 = bigEndian 4 h.chunkSize := by
  have hsplit : f.header h = (f.magic ++ [f.version]) ++ (bigEndian 4 h.chunkSize ++ (h.salt ++ h.noncePrefix)) := by
    simp [Format.header]
  rw [hsplit, List.drop_left' (by simp [hf]), List.take_left' (length_bigEndian 4 _)]

theorem parse_header (hf : f.magic.length = 5) (hh : h.WellFormed) (body : Bytes) :
    f.parse (f.header h ++ body) = .ok { h with chunkSize := h.chunkSize % 2 ^ 32 } := by
  have htake : (f.header h ++ body).take headerLength = f.header h := List.take_left' (length_header hf hh)
  have hmagic : (f.header h).take 5 = f.magic := take_header hf
  have hversion : (f.header h).getD 5 0 = f.version := by
    rw [Format.header, List.append_assoc, List.append_assoc, List.getD_eq_getElem?_getD, List.getElem?_append_right
      (by omega), hf]
    rfl
  have hsize : ((f.header h).drop 6).take 4 = bigEndian 4 h.chunkSize := chunkSize_header hf
  have hsalt : ((f.header h).drop 10).take saltLength = h.salt := by
    have hsplit : f.header h = (f.magic ++ [f.version] ++ bigEndian 4 h.chunkSize) ++ (h.salt ++ h.noncePrefix) := by
      simp [Format.header]
    rw [hsplit, List.drop_left' (by simp [hf]), List.take_left' hh.salt]
  have hnonce : ((f.header h).drop 26).take noncePrefixLength = h.noncePrefix := by
    have hsplit : f.header h = (f.magic ++ [f.version] ++ bigEndian 4 h.chunkSize ++ h.salt) ++ h.noncePrefix := by
      simp [Format.header]
    rw [hsplit, List.drop_left' (by simp [hf, hh.salt, saltLength]), List.take_of_length_le (Nat.le_of_eq hh.noncePrefix)]
  have hvalue : ofBigEndian (bigEndian 4 h.chunkSize) = h.chunkSize % 2 ^ 32 :=
    (ofBigEndian_bigEndian 4 h.chunkSize).trans rfl
  unfold Format.parse
  simp only [htake, hmagic, hversion, hsize, hsalt, hnonce, length_header hf hh, hvalue]
  rw [if_neg (by simp), if_neg (by simp)]

theorem drop_header (hf : f.magic.length = 5) (hh : h.WellFormed) (body : Bytes) :
    (f.header h ++ body).drop headerLength = body := by
  rw [← length_header hf hh, List.drop_left']
  rfl

end HeaderFacts

end Transform.Security
