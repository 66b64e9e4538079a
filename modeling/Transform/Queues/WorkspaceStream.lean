import Transform.Conversions.Message
import Transform.Lib.Broker
import Transform.Workspaces.Revision

/-!
# Queues.WorkspaceStream — the stream of workspace work

A message points to an execution or to an environment snapshot.  `WorkspaceWorkStream` publishes it and records the
failure of one that cannot be processed; the consumer reads, settles and re-queues messages of the one stream.
-/

namespace Transform.Queues

open Lib Conversions Workspaces

/-! ## Messages -/

section Messages

def workspaceWorkStream : String := "workspace_work"

def workKindExecution : String := "execution"

def workKindSnapshot : String := "snapshot"

structure WorkspaceWorkMessage where
  kind : String
  workspaceId : String
  executionId : Option String := none
  revisionId : Option String := none
  deriving DecidableEq, Repr

namespace WorkspaceWorkMessage

/-- The fields of the entry; an absent id is dropped. -/
def toDict (m : WorkspaceWorkMessage) : Fields :=
  [("kind", m.kind), ("workspace_id", m.workspaceId)]
  ++ (m.executionId.map fun id => ("execution_id", id)).toList
  ++ (m.revisionId.map fun id => ("revision_id", id)).toList

def fromDict (raw : Fields) : WorkspaceWorkMessage where
  kind := (raw.lookup "kind").getD ""
  workspaceId := (raw.lookup "workspace_id").getD ""
  executionId := truthy (raw.lookup "execution_id")
  revisionId := truthy (raw.lookup "revision_id")

theorem fromDict_toDict (m : WorkspaceWorkMessage) (he : m.executionId ≠ some "") (hr : m.revisionId ≠ some "") :
    fromDict m.toDict = m := by
  obtain ⟨kind, workspaceId, executionId, revisionId⟩ := m
  have keep : ∀ id : Option String, id ≠ some "" → truthy id = id := by
    intro id h
    rcases id with _ | id
    · rfl
    · have hne : id ≠ "" := fun h' => h (by rw [h'])
      simp [truthy, hne]
  have hexec := keep executionId he
  have hrev := keep revisionId hr
  rcases executionId with _ | e <;> rcases revisionId with _ | r <;>
    simp [fromDict, toDict, List.lookup, hexec, hrev]

end WorkspaceWorkMessage

def executionMessage (execution : Execution) : WorkspaceWorkMessage where
  kind := workKindExecution
  workspaceId := execution.workspaceId
  executionId := some execution.executionId

def snapshotMessage (revision : RuntimeImageRevision) : WorkspaceWorkMessage where
  kind := workKindSnapshot
  workspaceId := revision.workspaceId
  revisionId := some revision.revisionId

end Messages

/-! ## The publisher and the consumer -/

section Streams

/-- The work stream of the workspaces: entries and dead letters are fields of strings. -/
abbrev WorkSig : Sig := BrokerSig Fields Fields WorkspaceWorkMessage WorkError

/-- A call of the Redis client, or the processing of a message. -/
def workRedis (op : BrokerOp Fields Fields WorkspaceWorkMessage) : Act WorkSig WorkError op.Ans := @ask WorkSig op

variable (stream : String)

/-- `WorkspaceWorkStream._publish`. -/
def publishWork (message : WorkspaceWorkMessage) : Act WorkSig WorkError Unit :=
  workRedis (.append stream message.toDict)

def publishExecution (execution : Execution) : Act WorkSig WorkError Unit :=
  publishWork stream (executionMessage execution)

def publishSnapshot (revision : RuntimeImageRevision) : Act WorkSig WorkError Unit :=
  publishWork stream (snapshotMessage revision)

def workDeadLetterFields (messageId error : String) : Fields :=
  [("original_message_id", messageId), ("error", String.ofList (error.toList.take 900))]

def deadLetter (messageId error : String) : Act WorkSig WorkError Unit :=
  workRedis (.deadLetter (workDeadLetterFields messageId error))

/-- The next message of the stream, with its id. -/
def fetch : Act WorkSig WorkError (Option (String × WorkspaceWorkMessage)) := do
  let response ← workRedis (.readGroup [stream])
  return response.head?.map fun entry => (entry.2.1, WorkspaceWorkMessage.fromDict entry.2.2)

def acknowledge (messageId : String) : Act WorkSig WorkError Unit := workRedis (.ack stream messageId)

/-- Dead-letter, then acknowledge; a failure of either is swallowed. -/
def fail (messageId error : String) : Act WorkSig WorkError Unit := do
  Act.tryCatch (deadLetter messageId error) fun _ => return ()
  Act.tryCatch (acknowledge stream messageId) fun _ => return ()

/-- Acknowledge a reclaimed entry; a failure leaves it pending. -/
def safeAck (messageId : String) : Act WorkSig WorkError Unit :=
  Act.tryCatch (acknowledge stream messageId) fun _ => return ()

/-- Re-queue a claimed message, then acknowledge the original. -/
def requeueWork (messageId : String) (message : WorkspaceWorkMessage) : Act WorkSig WorkError ℕ :=
  Act.tryCatch (do
    workRedis (.republish stream messageId message.toDict)
    safeAck stream messageId
    return 1) fun _ => return 0

/-- A claimed entry: one without fields has been deleted, and only leaves the pending list. -/
def reclaimEntry (messageId : String) (fields : Fields) : Act WorkSig WorkError ℕ :=
  if fields = [] then do
    safeAck stream messageId
    return 0
  else requeueWork stream messageId (.fromDict fields)

def reclaimEntries : List (String × Fields) → Act WorkSig WorkError ℕ
  | [] => return 0
  | (messageId, fields) :: entries => do
    let requeued ← reclaimEntry stream messageId fields
    let rest ← reclaimEntries entries
    return requeued + rest

/-- The entries of a claim's reply, which are looked at only where the client hands over a tuple. -/
def claimedEntries (reply : ClaimReply Fields) : List (String × Fields) := if reply.isTuple then reply.entries else []

/-- The idle time after which an entry counts as abandoned. -/
def workStaleMinIdleMs (executionTimeoutSeconds : ℕ) : ℕ := executionTimeoutSeconds * 1000 + 60000

/-- Re-queue entries left pending by a worker that died mid-run. -/
def reclaimStale (executionTimeoutSeconds : ℕ) (count : ℕ := 20) : Act WorkSig WorkError ℕ := do
  let entries ← Act.tryCatch (do
    let reply ← workRedis (.autoClaim stream (workStaleMinIdleMs executionTimeoutSeconds) count)
    return claimedEntries reply) fun _ => return []
  reclaimEntries stream entries

end Streams

end Transform.Queues
