import Transform.Conversions.Job
import Transform.Lib.Json

/-!
# Assistant.Message — the rows of a conversation

The messages of the assistant's conversations as they are stored, with `meta` as JSON text, and the artifacts that they
carry.  A deletion that the assistant proposes is an artifact whose state is `pending` until it is resolved.

* `deletions_withDeletionState`: resolving a deletion changes the state of the pending proposals of its file, no other.
-/

namespace Transform.Assistant

open Lib Conversions

/-- A `dict` of JSON values. -/
abbrev Dict := List (String × Json)

inductive MessageRole
  | user
  | assistant
  | tool
  deriving DecidableEq, Repr

structure Conversation where
  id : String
  userId : ℤ
  title : String
  deriving DecidableEq, Repr

structure Message where
  id : String
  conversationId : String
  position : ℕ := 0
  role : MessageRole
  content : String
  toolName : Option String := none
  metadata : Option Dict := none
  deriving DecidableEq

/-- A row of `ai_messages`. -/
structure AiMessageRow where
  id : String
  conversationId : String
  position : ℕ
  role : MessageRole
  content : String
  toolName : Option String
  metadata : Option String
  deriving DecidableEq, Repr

/-- `json.dumps(meta) if meta else None`. -/
def dumpsMeta (metadata : Option Dict) : Option String :=
  match metadata with
  | some (entry :: entries) => some (Json.obj (entry :: entries)).dumps
  | _ => none

def loadsMeta (text : Option String) : Option Dict :=
  match (truthy text).bind Json.loads with
  | some (.obj entries) => some entries
  | _ => none

/-- `_to_message`. -/
def toMessage (row : AiMessageRow) : Message where
  id := row.id
  conversationId := row.conversationId
  position := row.position
  role := row.role
  content := row.content
  toolName := row.toolName
  metadata := loadsMeta row.metadata

def AiMessageRow.ofMessage (message : Message) (position : ℕ) : AiMessageRow where
  id := message.id
  conversationId := message.conversationId
  position := position
  role := message.role
  content := message.content
  toolName := message.toolName
  metadata := dumpsMeta message.metadata

/-- The newest rows of a conversation by their positions, the oldest first. -/
def Listed (rows : List AiMessageRow) (conversationId : String) (limit : ℕ) (listed : List AiMessageRow) : Prop :=
  ∃ newestFirst : List AiMessageRow, newestFirst.Perm (rows.filter (·.conversationId = conversationId)) ∧
    newestFirst.Pairwise (fun row older => older.position ≤ row.position) ∧ listed = (newestFirst.take limit).reverse

/-- What is stored is loaded again, but for an empty `dict`. -/
theorem loads_dumpsMeta {metadata : Dict} (h : (Json.obj metadata).Distinct) (hne : metadata ≠ []) :
    loadsMeta (dumpsMeta (some metadata)) = some metadata := by
  rcases metadata with _ | ⟨entry, entries⟩
  · exact absurd rfl hne
  · have htext : (Json.obj (entry :: entries)).dumps ≠ "" := by
      intro hempty
      have hlist := congrArg String.toList hempty
      rw [Json.dumps, String.toList_ofList] at hlist
      simp [Json.write] at hlist
    have htruthy : truthy (some (Json.obj (entry :: entries)).dumps) = some (Json.obj (entry :: entries)).dumps := by
      simp [truthy, htext]
    unfold loadsMeta dumpsMeta
    rw [htruthy, Option.bind_some, loads_dumps h]

theorem mem_of_listed {rows listed : List AiMessageRow} {conversationId : String} {limit : ℕ}
    (h : Listed rows conversationId limit listed) {row : AiMessageRow} (hrow : row ∈ listed) : row ∈ rows := by
  obtain ⟨newestFirst, hperm, -, rfl⟩ := h
  have hmem := List.mem_of_mem_take (List.mem_reverse.1 hrow)
  exact (List.mem_filter.1 (hperm.mem_iff.1 hmem)).1

/-! ## Artifacts -/

section Artifacts

structure Artifact where
  type : String
  id : String
  name : String
  metadata : Dict
  deriving DecidableEq

/-- `_artifact_to_dict`. -/
def Artifact.toDict (artifact : Artifact) : Json :=
  .obj [("type", .str artifact.type), ("id", .str artifact.id), ("name", .str artifact.name),
    ("meta", .obj artifact.metadata)]

/-- `value == text`. -/
def isStr (value : Option Json) (text : String) : Bool := value.bind Json.str? = some text

/-- The artifacts of a message, where its `meta` has a list of them. -/
def rawArtifacts (metadata : Option Dict) : Option (List Json) := (mapGet (metadata.getD []) "artifacts").bind Json.arr?

/-- The `meta` of an artifact that proposes to delete the file. -/
def deletionMeta (fields : Dict) (fileId : String) : Option Dict :=
  if isStr (mapGet fields "type") "delete" && isStr (mapGet fields "id") fileId then (mapGet fields "meta").bind Json.obj?
  else none

/-- The pending proposal to delete a file, resolved; anything else stays. -/
def resolveEntry (fileId state : String) : Json → Json
  | .obj fields =>
    match deletionMeta fields fileId with
    | some entryMeta =>
      if isStr (mapGet entryMeta "state") "pending" then
        .obj (mapSet fields "meta" (.obj (mapSet entryMeta "state" (.str state))))
      else .obj fields
    | none => .obj fields
  | entry => entry

/-- `_with_deletion_state`. -/
def withDeletionState (metadata : Option Dict) (fileId state : String) : Dict :=
  match rawArtifacts metadata with
  | some raw => mapSet (metadata.getD []) "artifacts" (.arr (raw.map (resolveEntry fileId state)))
  | none => metadata.getD []

def pendingEntry (fileId : String) : Json → Option Artifact
  | .obj fields => do
    let entryMeta ← deletionMeta fields fileId
    if isStr (mapGet entryMeta "state") "pending" then
      some ⟨"delete", fileId, ((mapGet fields "name").bind Json.str?).getD "", entryMeta⟩
    else none
  | _ => none

/-- `_pending_deletion`: the newest message of the assistant that proposes to delete the file. -/
def pendingDeletion (messages : List Message) (fileId : String) : Option (Message × Artifact) :=
  messages.reverse.findSome? fun message =>
    if message.role ≠ .assistant then none
    else (((rawArtifacts message.metadata).getD []).findSome? (pendingEntry fileId)).map fun artifact => (message, artifact)

end Artifacts

/-! ## Proposals -/

section Proposals

/-- The file that an artifact proposes to delete, with the state that is recorded for it. -/
def deletionOf : Json → Option (String × Option Json)
  | .obj fields =>
    if isStr (mapGet fields "type") "delete" then
      ((mapGet fields "id").bind Json.str?).map fun fileId =>
        (fileId, ((mapGet fields "meta").bind Json.obj?).bind fun entryMeta => mapGet entryMeta "state")
    else none
  | _ => none

def deletions (metadata : Option Dict) : List (String × Option Json) :=
  ((rawArtifacts metadata).getD []).filterMap deletionOf

def Pending (recorded : Option Json) : Prop := isStr recorded "pending" = true

instance (recorded : Option Json) : Decidable (Pending recorded) := inferInstanceAs (Decidable (_ = _))

def resolveState (fileId state : String) (proposal : String × Option Json) : String × Option Json :=
  if proposal.1 = fileId ∧ Pending proposal.2 then (proposal.1, some (.str state)) else proposal

variable {metadata : Option Dict} {fileId state : String}

theorem deletionOf_resolveEntry (entry : Json) :
    deletionOf (resolveEntry fileId state entry) = (deletionOf entry).map (resolveState fileId state) := by
  cases entry with
  | obj fields =>
    by_cases htype : isStr (mapGet fields "type") "delete" = true
    · rcases hid : (mapGet fields "id").bind Json.str? with _ | other
      · simp [resolveEntry, deletionMeta, deletionOf, isStr, hid]
      · rcases hmeta : (mapGet fields "meta").bind Json.obj? with _ | entryMeta
        · by_cases hfile : other = fileId
          · simp [resolveEntry, deletionMeta, deletionOf, isStr, hid, hmeta, hfile, resolveState, Pending]
          · simp [resolveEntry, deletionMeta, deletionOf, isStr, hid, hmeta, hfile, resolveState]
        · have hset : ∀ (key : String) (value : Json), key ≠ "meta" →
              mapGet (mapSet fields "meta" value) key = mapGet fields key := by
            intro key value hkey
            rw [mapGet_mapSet, if_neg hkey]
          have hhere : ∀ value, mapGet (mapSet fields "meta" value) "meta" = some value := by
            intro value
            rw [mapGet_mapSet, if_pos rfl]
          by_cases hfile : other = fileId
          · have hidFile : isStr (mapGet fields "id") fileId = true := by simp [isStr, hid, hfile]
            have hfound : deletionMeta fields fileId = some entryMeta := by simp [deletionMeta, htype, hidFile, hmeta]
            by_cases hstate : isStr (mapGet entryMeta "state") "pending" = true
            · simp [resolveEntry, deletionOf, hfound, htype, hid, hmeta, hfile, resolveState, Pending, hstate, hset, hhere,
                Json.obj?, mapGet_mapSet]
            · simp [resolveEntry, deletionOf, hfound, htype, hid, hmeta, hfile, resolveState, Pending, hstate]
          · have hfound : deletionMeta fields fileId = none := by simp [deletionMeta, isStr, hid, hfile]
            simp [resolveEntry, deletionOf, hfound, htype, hid, hmeta, hfile, resolveState]
    · simp [resolveEntry, deletionMeta, deletionOf, htype]
  | _ => rfl

theorem rawArtifacts_withDeletionState :
    rawArtifacts (some (withDeletionState metadata fileId state)) =
      (rawArtifacts metadata).map (List.map (resolveEntry fileId state)) := by
  unfold withDeletionState
  rcases hraw : rawArtifacts metadata with _ | raw
  · exact hraw
  · unfold rawArtifacts
    rw [Option.getD_some, mapGet_mapSet, if_pos rfl]
    rfl

/-- **Resolving a deletion** changes the state of the pending proposals of its file, no other. -/
theorem deletions_withDeletionState :
    deletions (some (withDeletionState metadata fileId state)) = (deletions metadata).map (resolveState fileId state) := by
  unfold deletions
  rw [rawArtifacts_withDeletionState]
  rcases rawArtifacts metadata with _ | raw
  · rfl
  · simp only [Option.map_some, Option.getD_some, List.filterMap_map, List.map_filterMap]
    congr 1
    ext1 entry
    exact deletionOf_resolveEntry entry

theorem pendingEntry_deletion {entry : Json} {artifact : Artifact} (h : pendingEntry fileId entry = some artifact) :
    ∃ recorded, deletionOf entry = some (fileId, recorded) ∧ Pending recorded := by
  cases entry with
  | obj fields =>
    obtain ⟨entryMeta, hmeta, hartifact⟩ := Option.bind_eq_some_iff.1 h
    unfold deletionMeta at hmeta
    split_ifs at hmeta hartifact with hfile hpending
    rw [Bool.and_eq_true] at hfile
    have hid : (mapGet fields "id").bind Json.str? = some fileId := by simpa [isStr] using hfile.2
    refine ⟨mapGet entryMeta "state", ?_, hpending⟩
    simp only [deletionOf, hfile.1, if_true, hid, hmeta, Option.map_some, Option.bind_some]
  | _ => cases h

theorem pendingDeletion_found {messages : List Message} {message : Message} {artifact : Artifact}
    (h : pendingDeletion messages fileId = some (message, artifact)) : message ∈ messages ∧
      ∃ recorded, (fileId, recorded) ∈ deletions message.metadata ∧ Pending recorded := by
  obtain ⟨found, hfound, hartifact⟩ := List.exists_of_findSome?_eq_some h
  split_ifs at hartifact
  obtain ⟨artifact', hentry, hpair⟩ := Option.map_eq_some_iff.1 hartifact
  obtain ⟨rfl, rfl⟩ := Prod.mk.inj hpair
  obtain ⟨entry, hmem, hpending⟩ := List.exists_of_findSome?_eq_some hentry
  obtain ⟨recorded, hdeletion, hrecorded⟩ := pendingEntry_deletion hpending
  exact ⟨List.mem_reverse.1 hfound, recorded, List.mem_filterMap.2 ⟨entry, hmem, hdeletion⟩, hrecorded⟩

theorem distinct_resolveEntry {entry : Json} (h : entry.Distinct) : (resolveEntry fileId state entry).Distinct := by
  cases entry with
  | obj fields =>
    unfold resolveEntry
    dsimp only
    split
    · rename_i entryMeta hmeta
      unfold deletionMeta at hmeta
      split_ifs at hmeta ⊢
      · obtain ⟨value, hget, hobj⟩ := Option.bind_eq_some_iff.1 hmeta
        have hvalue := distinct_get h hget
        cases value with
        | obj entries =>
          obtain rfl := Option.some.inj hobj
          exact distinct_set h (distinct_set hvalue trivial)
        | _ => cases hobj
      · exact h
    · exact h
  | _ => exact h

theorem distinct_withDeletionState {entries : Dict} (h : (Json.obj entries).Distinct) :
    (Json.obj (withDeletionState (some entries) fileId state)).Distinct := by
  unfold withDeletionState
  rcases hraw : rawArtifacts (some entries) with _ | raw
  · exact h
  · obtain ⟨value, hget, harr⟩ := Option.bind_eq_some_iff.1 hraw
    have hvalue := distinct_get h hget
    cases value with
    | arr items =>
      obtain rfl := Option.some.inj harr
      refine distinct_set h (distinctItems_iff.2 fun item hitem => ?_)
      obtain ⟨entry, hentry, rfl⟩ := List.mem_map.1 hitem
      exact distinct_resolveEntry (distinctItems_iff.1 hvalue entry hentry)
    | _ => cases harr

theorem withDeletionState_ne_nil (h : deletions metadata ≠ []) : withDeletionState metadata fileId state ≠ [] := by
  intro hnil
  have hdeletions : (deletions metadata).map (resolveState fileId state) = [] := by
    rw [← deletions_withDeletionState, hnil]
    rfl
  exact h (List.map_eq_nil_iff.1 hdeletions)

end Proposals

end Transform.Assistant
