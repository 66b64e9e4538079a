import Mathlib
import Transform.Conversions.Job

/-!
# Conversions.Message — what a job looks like on a Redis stream

`ConversionJobMessage` carries part of a job; `toDict` are the fields of its stream entry and `buildJob` is the
job a worker makes of a delivered entry.  Every field the message does not carry comes back as its default, the
grouping columns among them (`buildJob_toDict`).
-/

namespace Transform.Conversions

/-- The string fields of a stream entry. -/
abbrev Fields := List (String × String)

structure ConversionJobMessage where
  jobId : String
  sourceFormat : String
  targetFormat : String
  inputKey : String
  objectKey : String
  userId : Option String := none
  retries : ℕ := 0
  clientEncrypted : Bool := false
  dataKeyWrapped : Option String := none
  origin : JobOrigin := .web
  deriving DecidableEq, Repr

namespace ConversionJobMessage

def fromConversionJob (job : ConversionJob) : Except PyError ConversionJobMessage :=
  if job.objectKey = "" then
    .error ⟨.valueError, "ConversionJob must have an object_key to create a ConversionJobMessage"⟩
  else .ok {
    jobId := job.jobId
    sourceFormat := job.conversion.sourceFormat
    targetFormat := job.conversion.targetFormat
    inputKey := job.inputFile
    objectKey := job.objectKey
    userId := job.userId.map Int.repr
    clientEncrypted := job.clientEncrypted
    dataKeyWrapped := job.dataKeyWrapped
    origin := job.origin }

/-- The fields of the entry; a `None` field is dropped. -/
def toDict (m : ConversionJobMessage) : Fields :=
  [("job_id", m.jobId), ("source_format", m.sourceFormat), ("target_format", m.targetFormat),
    ("input_key", m.inputKey), ("object_key", m.objectKey)]
  ++ (m.userId.map fun u => ("user_id", u)).toList
  ++ [("retries", toString m.retries), ("client_encrypted", if m.clientEncrypted then "true" else "false")]
  ++ (m.dataKeyWrapped.map fun k => ("data_key_wrapped", k)).toList
  ++ [("origin", m.origin.value)]

/-- Parse a stream boolean; an absent field is the string `None`. -/
def toBool (value : Option String) : Bool :=
  String.ofList ((strip (value.getD "None")).toList.map Char.toLower) ∈ ["true", "1", "yes"]

end ConversionJobMessage

/-- `job[key]`. -/
def Fields.get (fields : Fields) (key : String) : Except PyError String :=
  match fields.lookup key with
  | some v => .ok v
  | none => .error ⟨.keyError, pyRepr key⟩

/-- `int(job["user_id"]) if job.get("user_id") else None`. -/
def parseUserId (fields : Fields) : Except PyError (Option ℤ) :=
  match truthy (fields.lookup "user_id") with
  | none => .ok none
  | some u => (pyInt u).map some

/-- The job a worker makes of a delivered entry. -/
def buildJob (fields : Fields) : Except PyError ConversionJob := do
  let jobId ← fields.get "job_id"
  let sourceFormat ← fields.get "source_format"
  let targetFormat ← fields.get "target_format"
  let inputFile ← fields.get "input_key"
  let objectKey ← fields.get "object_key"
  let userId ← parseUserId fields
  .ok {
    jobId, conversion := ⟨sourceFormat, targetFormat⟩, inputFile, objectKey
    outputFile := some ""
    status := .pending
    userId
    clientEncrypted := ConversionJobMessage.toBool (fields.lookup "client_encrypted")
    dataKeyWrapped := truthy (fields.lookup "data_key_wrapped")
    origin := coerceJobOrigin (fields.lookup "origin") }

/-! ## The round trip -/

section RoundTrip

theorem isStripped_of_digit {c : Char} (h : c.isDigit) : isStripped c = false := by
  obtain ⟨h1, h2⟩ : 48 ≤ c.toNat ∧ c.toNat ≤ 57 := by
    simp only [Char.isDigit, ge_iff_le, UInt32.le_iff_toNat_le, Bool.and_eq_true, decide_eq_true_eq] at h
    exact h
  unfold isStripped
  generalize c.toNat = n at h1 h2
  interval_cases n <;> rfl

theorem strip_of_forall {s : String} (h : ∀ c ∈ s.toList, isStripped c = false) : strip s = s := by
  have drop : ∀ l : List Char, (∀ c ∈ l, isStripped c = false) → l.dropWhile isStripped = l := by
    intro l hl
    rcases l with _ | ⟨c, l⟩
    · rfl
    · simp [List.dropWhile, hl c (by simp)]
  unfold strip
  rw [drop _ h, drop _ (by simpa using h), List.reverse_reverse, String.ofList_toList]

/-- `str` of an integer has nothing to strip. -/
theorem strip_repr (n : ℤ) : strip n.repr = n.repr := by
  have digits : ∀ m : ℕ, ∀ c ∈ m.repr.toList, isStripped c = false := by
    intro m c hc
    rw [Nat.toList_repr] at hc
    exact isStripped_of_digit (Nat.isDigit_of_mem_toDigits (by omega) (by omega) hc)
  refine strip_of_forall fun c hc => ?_
  rcases n with m | m
  · exact digits m c hc
  · simp only [Int.repr, String.toList_append, List.mem_append] at hc
    rcases hc with hc | hc
    · obtain rfl : c = '-' := by simpa using hc
      rfl
    · exact digits _ c hc

theorem get_ok {fields : Fields} {key value : String} (h : fields.get key = .ok value) :
    fields.lookup key = some value := by
  unfold Fields.get at h
  rcases hl : fields.lookup key with _ | v
  · rw [hl] at h
    cases h
  · rw [hl] at h
    cases h
    rfl

theorem repr_ne_empty (n : ℤ) : n.repr ≠ "" := by
  have nat : ∀ m : ℕ, m.repr ≠ "" := fun m h => by
    have hm := Nat.toList_repr (n := m)
    rw [h] at hm
    exact Nat.toDigits_ne_nil hm.symm
  rcases n with m | m
  · exact nat m
  · intro h
    have hm := congrArg String.toList h
    simp [Int.repr] at hm

theorem truthy_repr (n : ℤ) : truthy (some n.repr) = some n.repr := by
  unfold truthy
  rw [Option.filter_some, if_pos (by simpa using repr_ne_empty n)]

theorem truthy_none : truthy none = none := rfl

theorem coerceJobOrigin_value (o : JobOrigin) : coerceJobOrigin (some o.value) = o := by
  cases o <;> decide

theorem toBool_toDict (b : Bool) :
    ConversionJobMessage.toBool (some (if b then "true" else "false")) = b := by
  cases b <;> decide

theorem pyInt_repr (n : ℤ) : pyInt n.repr = .ok n := by
  unfold pyInt
  rw [strip_repr, Int.toInt?_repr]

theorem buildJob_ok {fields : Fields} {job : ConversionJob} (h : buildJob fields = .ok job) :
    job.status = .pending ∧ job.creditsUsed = 0 ∧ job.batchId = none ∧ job.workflowId = none := by
  unfold buildJob at h
  obtain ⟨_, -, h⟩ := bind_ok h
  obtain ⟨_, -, h⟩ := bind_ok h
  obtain ⟨_, -, h⟩ := bind_ok h
  obtain ⟨_, -, h⟩ := bind_ok h
  obtain ⟨_, -, h⟩ := bind_ok h
  obtain ⟨_, -, h⟩ := bind_ok h
  cases h
  exact ⟨rfl, rfl, rfl, rfl⟩

theorem buildJob_jobId {fields : Fields} {job : ConversionJob} (h : buildJob fields = .ok job) :
    fields.lookup "job_id" = some job.jobId := by
  unfold buildJob at h
  obtain ⟨jobId, hid, h⟩ := bind_ok h
  obtain ⟨_, -, h⟩ := bind_ok h
  obtain ⟨_, -, h⟩ := bind_ok h
  obtain ⟨_, -, h⟩ := bind_ok h
  obtain ⟨_, -, h⟩ := bind_ok h
  obtain ⟨_, -, h⟩ := bind_ok h
  cases h
  exact get_ok hid

theorem lookup_toDict (m : ConversionJobMessage) : m.toDict.lookup "job_id" = some m.jobId := rfl

theorem fromConversionJob_ok {job : ConversionJob} {m : ConversionJobMessage}
    (h : ConversionJobMessage.fromConversionJob job = .ok m) : m.jobId = job.jobId := by
  unfold ConversionJobMessage.fromConversionJob at h
  split_ifs at h with hk
  cases h
  rfl

/-- **What a worker gets of a job**: the fields of the message as the job had them, every other one at its
default; status, result and grouping columns do not travel. -/
theorem buildJob_toDict {job : ConversionJob} {m : ConversionJobMessage}
    (h : ConversionJobMessage.fromConversionJob job = .ok m) :
    buildJob m.toDict = .ok {
      jobId := job.jobId, conversion := job.conversion, inputFile := job.inputFile, objectKey := job.objectKey
      outputFile := some "", status := .pending, userId := job.userId, clientEncrypted := job.clientEncrypted
      dataKeyWrapped := truthy job.dataKeyWrapped, origin := job.origin } := by
  unfold ConversionJobMessage.fromConversionJob at h
  split_ifs at h with hk
  cases h
  unfold buildJob ConversionJobMessage.toDict
  rcases hu : job.userId with _ | u <;> rcases hd : job.dataKeyWrapped with _ | k <;>
    simp [Fields.get, parseUserId, List.lookup, truthy_none, truthy_repr, ok_bind, pyInt_repr, toBool_toDict,
      coerceJobOrigin_value, Except.map]

end RoundTrip

end Transform.Conversions
