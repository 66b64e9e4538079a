import Transform.Conversions.Message
import Transform.Lib.Broker
import Transform.Lib.Stm

/-!
# Queues.JobStream — the job streams, their producer and their consumer

`publishJob` appends a job to a stream; a `JobStreamConsumer` fetches, acknowledges, dead-letters and re-queues.  The
consumer buffers what one read delivered beyond the job it returns, and remembers which stream each delivery key came
from.
-/

namespace Transform.Queues

open Lib Conversions

/-! ## Names -/

section Names

def jobStream : String := "conversion_jobs"

/-- The streams workers consume, in priority order. -/
def jobTierStreams : List String := [jobStream ++ ":high", jobStream ++ ":normal", jobStream ++ ":low", jobStream]

/-- Prefix a stream name with the configured namespace, once. -/
def qualify (streamPrefix name : String) : String :=
  if streamPrefix = "" ∨ streamPrefix.toList <+: name.toList then name else streamPrefix ++ name

def qualifyAll (streamPrefix : String) (names : List String) : List String := names.map (qualify streamPrefix)

/-- The key of a delivered entry, whose id is unique only within its stream. -/
def deliveryKey (stream messageId : String) : String := stream ++ ":" ++ messageId

/-- Strip the stream from a delivery key. -/
def rawMessageId (stream key : String) : String :=
  let head := (stream ++ ":").toList
  if head <+: key.toList then String.ofList (key.toList.drop head.length) else key

/-- `key.rpartition(":")[0]`. -/
def beforeLastColon (key : String) : String :=
  String.ofList ((key.toList.reverse.dropWhile (· ≠ ':')).drop 1).reverse

end Names

/-! ## The producer and the consumer -/

section Streams

/-- The job streams: entries and dead letters are fields of strings. -/
abbrev QueueSig : Sig := BrokerSig Fields Fields ConversionJob PyError

/-- A call of the Redis client. -/
def redis (op : BrokerOp Fields Fields ConversionJob) : Act QueueSig PyError op.Ans := @ask QueueSig op

/-- `JobStream.publish_job`. -/
def publishJob (job : ConversionJob) (stream : String) : Act QueueSig PyError Unit := do
  let message ← .ofExcept (ConversionJobMessage.fromConversionJob job)
  redis (.append stream message.toDict)

structure JobStreamConsumer where
  streamName : String
  streams : List String
  messageStreams : List (String × String) := []
  buffer : List (String × String × Fields) := []

/-- The consumer of the streams under a namespace. -/
def JobStreamConsumer.create (streamPrefix : String) : JobStreamConsumer where
  streamName := qualify streamPrefix jobStream
  streams := qualifyAll streamPrefix jobTierStreams

/-- A method of the consumer. -/
abbrev Consumer (α : Type) : Type := Stm QueueSig JobStreamConsumer PyError α

/-- Remember where a delivery came from, and rebuild its job. -/
def buildDelivery (stream messageId : String) (fields : Fields) : Consumer (String × ConversionJob) := do
  let key := deliveryKey stream messageId
  .modify fun c => { c with messageStreams := (key, stream) :: c.messageStreams.filter (·.1 ≠ key) }
  let job ← .act (.ofExcept (buildJob fields))
  return (key, job)

/-- A read returns an entry of every stream that has one; the first is returned, the others are buffered. -/
def readJobs : Consumer (Option (String × ConversionJob)) := do
  let c ← .get
  match ← .act (redis (.readGroup c.streams)) with
  | [] => return none
  | (stream, messageId, fields) :: deliveries => do
    .modify fun c => { c with buffer := c.buffer ++ deliveries }
    let delivery ← buildDelivery stream messageId fields
    return some delivery

/-- Buffered deliveries first. -/
def fetchJob : Consumer (Option (String × ConversionJob)) := do
  let c ← .get
  match c.buffer with
  | (stream, messageId, fields) :: buffer => do
    .modify fun c => { c with buffer }
    let delivery ← buildDelivery stream messageId fields
    return some delivery
  | [] => readJobs

/-- The stream a delivery key came from, as remembered; otherwise as the key says. -/
def JobStreamConsumer.streamOf (c : JobStreamConsumer) (key : String) : String :=
  match c.messageStreams.lookup key with
  | some stream => stream
  | none => if beforeLastColon key ∈ c.streams then beforeLastColon key else c.streamName

def streamForMessage (key : String) : Consumer String := do
  let c ← .get
  .modify fun c => { c with messageStreams := c.messageStreams.filter (·.1 ≠ key) }
  return c.streamOf key

def acknowledgeJob (key : String) : Consumer Unit := do
  let stream ← streamForMessage key
  .act (redis (.ack stream (rawMessageId stream key)))

/-- A bare acknowledgement; the error is not used. -/
def failJob (key _errorMessage : String) : Consumer Unit := acknowledgeJob key

def deadLetterFields (message : ConversionJobMessage) (error key : String) : Fields :=
  message.toDict ++ [("error", error), ("original_message_id", key)]

def deadLetterJob (key errorMessage : String) (job : ConversionJob) : Act QueueSig PyError Unit := do
  let message ← .ofExcept (ConversionJobMessage.fromConversionJob job)
  redis (.deadLetter (deadLetterFields message errorMessage key))

/-- Acknowledge the original of a copy; a failure leaves it pending. -/
def ackOriginal (stream messageId : String) : Act QueueSig PyError Unit :=
  (redis (.ack stream messageId)).tryCatch fun _ => pure ()

/-- Append a copy of a claimed entry, then acknowledge the original. -/
def requeue (stream messageId : String) (fields : Fields) : Act QueueSig PyError Bool := do
  let published ← Act.tryCatch (do
    redis (.republish stream messageId fields)
    return true) fun _ => return false
  if published then
    ackOriginal stream messageId
    return true
  else return false

def requeueAll (stream : String) : List (String × Fields) → Act QueueSig PyError ℕ
  | [] => return 0
  | (messageId, fields) :: entries => do
    let requeued ← requeue stream messageId fields
    let rest ← requeueAll stream entries
    return (if requeued then 1 else 0) + rest

/-- Claim and re-queue the entries of one stream that have been idle for too long. -/
def reclaimStream (stream : String) (minIdleMs count : ℕ) : Act QueueSig PyError ℕ := do
  let entries ← Act.tryCatch (do
    let reply ← redis (.autoClaim stream minIdleMs count)
    return reply.entries) fun _ => return []
  requeueAll stream entries

def reclaimStreams (minIdleMs count : ℕ) : List String → Act QueueSig PyError ℕ
  | [] => return 0
  | stream :: streams => do
    let requeued ← reclaimStream stream minIdleMs count
    let rest ← reclaimStreams minIdleMs count streams
    return requeued + rest

def reclaimStaleJobs (minIdleMs : ℕ := 60000) (count : ℕ := 20) : Consumer ℕ := do
  let c ← .get
  .act (reclaimStreams minIdleMs count c.streams)

/-- Deliveries a fetch may hold beyond the one it returns. -/
def maxBufferedMessagesPerFetch : ℕ := jobTierStreams.length - 1

end Streams

/-! ## What a job keeps on its way -/

section Requeued

/-- A run of `_requeue` on a delivery of `fields` has appended `fields'`. -/
def Requeued (fields fields' : Fields) : Prop :=
  ∃ stream messageId tr r, Run (requeue stream messageId fields).run tr r ∧
    ∃ ev ∈ tr, ∃ original, ev.op = .republish stream original fields'

theorem requeue_only {stream messageId : String} {fields : Fields} : (requeue stream messageId fields).Only
    fun op : BrokerOp Fields Fields ConversionJob => ∀ stream' original fields', op = .republish stream' original fields' → fields' = fields := by
  refine only_bind (only_tryCatch (only_bind (only_ask ?_) fun _ => only_pure) fun _ => only_pure) fun published => ?_
  · rintro _ _ _ ⟨⟩
    rfl
  · rcases published with _ | _
    · exact only_pure
    · refine only_bind (only_tryCatch (only_ask ?_) fun _ => only_pure) fun _ => only_pure
      rintro _ _ _ ⟨⟩

theorem requeued_same {fields fields' : Fields} (h : Requeued fields fields') : fields' = fields := by
  obtain ⟨stream, messageId, tr, r, hrun, ev, hev, original, hop⟩ := h
  exact run_allOps requeue_only hrun ev hev _ _ _ hop

/-- **What a worker is given of a job**: the fields of its message, after any number of re-queues; a data key that is the
empty string comes back as none. -/
theorem buildJob_requeued {job : ConversionJob} (h : job.objectKey ≠ "") :
    ∃ message, ConversionJobMessage.fromConversionJob job = .ok message ∧
      ∀ fields, Relation.ReflTransGen Requeued message.toDict fields → ∃ built, buildJob fields = .ok built ∧
        built.status = .pending ∧ built.jobId = job.jobId ∧ built.conversion = job.conversion ∧
        built.inputFile = job.inputFile ∧ built.objectKey = job.objectKey ∧ built.userId = job.userId ∧
        built.clientEncrypted = job.clientEncrypted ∧ built.dataKeyWrapped = truthy job.dataKeyWrapped ∧
        built.origin = job.origin := by
  have hmessage : ∃ message, ConversionJobMessage.fromConversionJob job = .ok message := by
    unfold ConversionJobMessage.fromConversionJob
    rw [if_neg h]
    exact ⟨_, rfl⟩
  obtain ⟨message, hmessage⟩ := hmessage
  refine ⟨message, hmessage, fun fields hfields => ?_⟩
  have hsame : fields = message.toDict := by
    induction hfields with
    | refl => rfl
    | tail _ hstep ih => rw [requeued_same hstep, ih]
  rw [hsame]
  exact ⟨_, buildJob_toDict hmessage, rfl, rfl, rfl, rfl, rfl, rfl, rfl, rfl, rfl⟩

def keyedJob (dataKeyWrapped : Option String) : ConversionJob where
  jobId := "j-1"
  conversion := ⟨"pdf", "txt"⟩
  inputFile := "report.pdf"
  objectKey := "uploads/7/report.pdf"
  userId := some 0
  clientEncrypted := true
  dataKeyWrapped := dataKeyWrapped
  origin := .api

theorem buildJob_requeued_keyedJob : ∃ message, ConversionJobMessage.fromConversionJob (keyedJob (some "ab")) = .ok message ∧
    ∀ fields, Relation.ReflTransGen Requeued message.toDict fields → ∃ built, buildJob fields = .ok built ∧
      built.status = .pending ∧ built.jobId = "j-1" ∧ built.conversion = ⟨"pdf", "txt"⟩ ∧
      built.inputFile = "report.pdf" ∧ built.objectKey = "uploads/7/report.pdf" ∧ built.userId = some 0 ∧
      built.clientEncrypted = true ∧ built.dataKeyWrapped = truthy (some "ab") ∧ built.origin = .api :=
  buildJob_requeued (by decide)

/-- A data key that is the empty string is lost on the way. -/
theorem empty_dataKey_lost : ¬ ∀ job : ConversionJob, job.objectKey ≠ "" →
    ∃ message built, ConversionJobMessage.fromConversionJob job = .ok message ∧ buildJob message.toDict = .ok built ∧
      built.dataKeyWrapped = job.dataKeyWrapped := by
  intro h
  obtain ⟨message, built, hmessage, hbuilt, hkey⟩ := h (keyedJob (some "")) (by decide)
  rw [buildJob_toDict hmessage] at hbuilt
  cases hbuilt
  revert hkey
  decide

end Requeued

end Transform.Queues
