import Transform.Assistant.Deletion

/-!
# Assistant.DeletionRuns — clicks on one proposal, and on its neighbours

* `wp_resolveDeletion`: a call deletes the file only where it has found a pending proposal and the click confirms it, and
  it records what it has done.
* `deletions_settled`: where every call writes the `meta` that it has read, and no other call has settled its proposal in
  the meantime, each proposal is resolved once, and what is recorded of it is so and stays.
* `cancel_overwrites` is a cancel that races a confirm: the file is deleted, and the transcript says that it was kept.
-/

namespace Transform.Assistant

open Lib
open Files (UserFile)

variable {call : DeletionCall} {w : DeletionWorld} {i j : ℕ}

/-! ## One call -/

section Call

/-- How far a call is. -/
inductive Stage
  | reading
  | found (message : Message)
  | removed (message : Message)
  | done

/-- The state that a call records of the proposal it found. -/
def Stage.Records (g : Stage) (message : Message) (state : String) : Prop :=
  g = .found message ∧ (state = "failed" ∨ state = "cancelled") ∨ g = .removed message ∧ state = "deleted"

def Stage.May (call : DeletionCall) (g : Stage) : DeletionOp → Prop
  | .listMessages _ _ => g = .reading
  | .deleteFile fileId => call.approve = true ∧ fileId = call.fileId ∧ ∃ message, g = .found message
  | .updateMessageMeta messageId metadata => ∃ message state, messageId = message.id ∧
      metadata = dumpsMeta (some (withDeletionState message.metadata call.fileId state)) ∧ g.Records message state
  | _ => True

def Stage.step (call : DeletionCall) : Stage → Event DeletionSig → Stage
  | g, ⟨.listMessages _ _, .ok rows, _, _⟩ =>
    (((pendingDeletion (rows.map toMessage) call.fileId).map (·.1)).map Stage.found).getD g
  | .found message, ⟨.deleteFile _, .ok _, _, _⟩ => .removed message
  | _, ⟨.deleteFile _, .error _, _, _⟩ => .done
  | _, ⟨.updateMessageMeta _ _, _, _, _⟩ => .done
  | g, _ => g

/-- A failing statement raises an error of the driver, and a row is read under its key. -/
def Answers : Event DeletionSig → Prop
  | ⟨_, .error e, _, _⟩ => ∃ message, e = .driver message
  | ⟨.getFile fileId, .ok row?, _, _⟩ => ∀ row, row? = some row → row.id = fileId
  | _ => True

def callMonitor (call : DeletionCall) : Monitor DeletionSig Stage := ⟨Stage.May call, fun _ => Answers, Stage.step call⟩

variable {g : Stage} {message : Message}

theorem wpe_getFile {userId : ℤ} {fileId : String} :
    wpe (callMonitor call) (getFile userId fileId) (fun row g' => g' = .found message ∧ row.id = fileId)
      (fun e g' => e = .fileRecordNotFound ∧ g' = .found message ∨ ∃ text, e = .driver text) (.found message) := by
  unfold getFile
  rw [wpe_bind]
  refine wpe_ask.2 ⟨trivial, fun row? hrow => ?_, fun e _ _ he => .inr he⟩
  rcases row? with _ | row
  · exact .inl ⟨rfl, rfl⟩
  · dsimp only
    split_ifs
    · exact ⟨rfl, hrow row rfl⟩
    · exact .inl ⟨rfl, rfl⟩

theorem wpe_deleteOwnedFile (happrove : call.approve = true) :
    wpe (callMonitor call) (deleteOwnedFile call.userId call.fileId) (fun _ g' => g' = .removed message)
      (fun e g' => e = .fileRecordNotFound ∧ g' = .found message ∨ ∃ text, e = .driver text) (.found message) := by
  unfold deleteOwnedFile
  rw [wpe_bind]
  refine wpe_mono wpe_getFile ?_ fun _ _ h => h
  rintro row g ⟨rfl, -⟩
  unfold deleteFile
  rw [wpe_bind, wpe_bind]
  refine wpe_mono wpe_getFile ?_ fun _ _ h => h
  rintro row g ⟨rfl, hid⟩
  rw [wpe_bind]
  refine wpe_ask.2 ⟨trivial, fun _ _ => ?_, fun _ _ _ he => .inr he⟩
  rw [wpe_bind]
  exact wpe_ask.2 ⟨⟨happrove, hid, message, rfl⟩, fun _ _ => rfl, fun _ _ _ he => .inr he⟩

theorem wpe_carryOut {artifact : Artifact} :
    wpe (callMonitor call) (carryOut call artifact) (fun done g' => g'.Records message done.2) (fun _ _ => True)
      (.found message) := by
  unfold carryOut
  split_ifs with happrove
  · rw [wpe_tryCatch, wpe_bind]
    refine wpe_mono (wpe_deleteOwnedFile happrove) ?_ ?_
    · rintro fileName g rfl
      exact .inr ⟨rfl, rfl⟩
    · rintro e g (⟨rfl, rfl⟩ | ⟨text, rfl⟩)
      · exact .inl ⟨rfl, .inl rfl⟩
      · trivial
  · exact .inl ⟨rfl, .inr rfl⟩

/-- **A call** deletes the file only where the click confirms the pending proposal that it has found. -/
theorem wp_resolveDeletion : wp (callMonitor call) (thread (resolveDeletion call)) (fun _ _ => True) .reading := by
  refine wp_thread_of_wpe (R := fun _ => True) ?_
  unfold resolveDeletion
  rw [wpe_bind]
  refine wpe_ask.2 ⟨trivial, fun conversation? _ => ?_, fun _ _ _ _ => trivial⟩
  rcases conversation? with _ | conversation
  · trivial
  dsimp only
  unfold listMessages
  rw [wpe_bind, wpe_bind]
  refine wpe_ask.2 ⟨rfl, fun rows _ => ?_, fun _ _ _ _ => trivial⟩
  rw [wpe_pure]
  rcases hfound : pendingDeletion (rows.map toMessage) call.fileId with _ | ⟨message, artifact⟩
  · trivial
  dsimp only
  rw [wpe_bind]
  change wpe _ _ _ _ ((((pendingDeletion (rows.map toMessage) call.fileId).map (·.1)).map Stage.found).getD .reading)
  rw [hfound]
  refine wpe_mono wpe_carryOut ?_ fun _ _ _ => trivial
  rintro ⟨fileName, state⟩ g hrecords
  rw [wpe_bind]
  exact wpe_ask.2 ⟨⟨message, state, rfl, rfl, hrecords⟩, fun _ _ => trivial, fun _ _ _ _ => trivial⟩

end Call

/-! ## What a call knows -/

section Knows

def proposals (row : AiMessageRow) : List (String × Option Json) := deletions (toMessage row).metadata

def ids (w : DeletionWorld) : List String := w.messages.map (·.id)

/-- The ids of the messages are distinct, and each `meta` is one that has been stored. -/
structure Sound (w : DeletionWorld) : Prop where
  ids : (ids w).Nodup
  stored : ∀ row ∈ w.messages, DeletionWorld.Stored row.metadata

structure Proposed (w : DeletionWorld) (call : DeletionCall) (message : Message) : Prop where
  listed : message.id ∈ ids w
  metadata : ∃ entries, message.metadata = some entries ∧ (Json.obj entries).Distinct
  pending : ∃ recorded, (call.fileId, recorded) ∈ deletions message.metadata ∧ Pending recorded

def Stage.Stands (w : DeletionWorld) (i : ℕ) (call : DeletionCall) : Stage → Prop
  | .reading => w.calls i = {}
  | .found message => w.calls i = ⟨some message, false, none⟩ ∧ Proposed w call message
  | .removed message => (w.calls i).found = some message ∧ (w.calls i).deletedRow = true ∧ Proposed w call message
  | .done => True

/-- What holds of a thread: a call is at some stage, and anything else has nothing to do. -/
def Knows (w : DeletionWorld) (i : ℕ) (tag : DeletionTag) (p : Proc DeletionSig Unit) : Prop :=
  match tag with
  | .resolve call => ∃ g : Stage, g.Stands w i call ∧ wp (callMonitor call) p (fun _ _ => True) g
  | _ => p = .ret ()

variable {g : Stage} {ev : Event DeletionSig} {message : Message}

theorem ids_setMeta {messageId : String} {metadata : Option String} :
    (w.setMeta messageId metadata).map (·.id) = ids w := by
  unfold DeletionWorld.setMeta ids
  rw [List.map_map]
  refine List.map_congr_left fun row _ => ?_
  show (if row.id = messageId then { row with metadata } else row).id = row.id
  split_ifs
  · rfl
  · rfl

theorem ids_apply : ids (w.apply i call ev) = ids w := by
  unfold DeletionWorld.apply
  split
  case h_3 => exact ids_setMeta
  all_goals rfl

theorem ids_kept : ids w ⊆ ids (w.apply i call ev) := by
  rw [ids_apply]
  exact fun _ h => h

theorem calls_other (hji : j ≠ i) : (w.apply i call ev).calls j = w.calls j := by
  unfold DeletionWorld.apply
  split
  case h_1 => exact Function.update_of_ne hji _ _
  case h_2 => exact Function.update_of_ne hji _ _
  all_goals rfl

theorem proposed_of_ids {w' : DeletionWorld} (hids : ids w ⊆ ids w') (h : Proposed w call message) :
    Proposed w' call message :=
  ⟨hids h.listed, h.metadata, h.pending⟩

/-- A thread stands where it stood while its view is left alone and no message goes. -/
theorem stands_of_ids {w' : DeletionWorld} (hcalls : w'.calls j = w.calls j) (hids : ids w ⊆ ids w')
    (h : g.Stands w j call) : g.Stands w' j call := by
  cases g with
  | reading => exact hcalls.trans h
  | found message => exact ⟨hcalls.trans h.1, proposed_of_ids hids h.2⟩
  | removed message =>
    obtain ⟨hview, hdeleted, hproposed⟩ := h
    refine ⟨?_, ?_, proposed_of_ids hids hproposed⟩
    · rw [hcalls]
      exact hview
    · rw [hcalls]
      exact hdeleted
  | done => trivial

theorem knows_of_ids {w' : DeletionWorld} {tag : DeletionTag} {p : Proc DeletionSig Unit} (hcalls : w'.calls j = w.calls j)
    (hids : ids w ⊆ ids w') (h : Knows w j tag p) : Knows w' j tag p := by
  cases tag with
  | resolve call =>
    obtain ⟨g, hstands, hwp⟩ := h
    exact ⟨g, stands_of_ids hcalls hids hstands, hwp⟩
  | _ => exact h

/-- What is read of the messages is stored, so what is found has the `meta` of a stored message. -/
theorem proposed_of_listed (hw : Sound w) {conversationId : String} {limit : ℕ} {rows : List AiMessageRow}
    (hlisted : Listed w.messages conversationId limit rows) {artifact : Artifact}
    (hfound : pendingDeletion (rows.map toMessage) call.fileId = some (message, artifact)) : Proposed w call message := by
  obtain ⟨hmem, recorded, hdeletion, hpending⟩ := pendingDeletion_found hfound
  obtain ⟨row, hrow, rfl⟩ := List.mem_map.1 hmem
  have hstored := mem_of_listed hlisted hrow
  refine ⟨List.mem_map.2 ⟨row, hstored, rfl⟩, ?_, recorded, hdeletion, hpending⟩
  rcases hw.stored row hstored with hnone | ⟨entries, hdistinct, hne, htext⟩
  · have hempty : deletions (toMessage row).metadata = [] := by
      show deletions (loadsMeta row.metadata) = []
      rw [hnone]
      rfl
    rw [hempty] at hdeletion
    cases hdeletion
  · refine ⟨entries, ?_, hdistinct⟩
    show loadsMeta row.metadata = some entries
    rw [htext, loads_dumpsMeta hdistinct hne]

/-- What a call writes is a `meta` with the proposals of the one it found, and its own resolved. -/
theorem written {metadata : Option String} {state : String} (h : Proposed w call message)
    (hmetadata : metadata = dumpsMeta (some (withDeletionState message.metadata call.fileId state))) :
    DeletionWorld.Stored metadata ∧
      deletions (loadsMeta metadata) = (deletions message.metadata).map (resolveState call.fileId state) := by
  obtain ⟨entries, hentries, hdistinct⟩ := h.metadata
  obtain ⟨recorded, hdeletion, -⟩ := h.pending
  have hne : withDeletionState message.metadata call.fileId state ≠ [] :=
    withDeletionState_ne_nil (List.ne_nil_of_mem hdeletion)
  have hdistinct' : (Json.obj (withDeletionState message.metadata call.fileId state)).Distinct := by
    rw [hentries]
    exact distinct_withDeletionState hdistinct
  refine ⟨.inr ⟨_, hdistinct', hne, hmetadata⟩, ?_⟩
  rw [hmetadata, loads_dumpsMeta hdistinct' hne]
  exact deletions_withDeletionState

theorem proposed_of_stands (hstands : g.Stands w i call) {state : String} (hrecords : g.Records message state) :
    Proposed w call message := by
  rcases hrecords with ⟨rfl, -⟩ | ⟨rfl, -⟩
  · exact hstands.2
  · exact hstands.2.2

theorem sound_apply (hw : Sound w) (hstands : g.Stands w i call) (hmay : g.May call ev.op) : Sound (w.apply i call ev) := by
  refine ⟨?_, ?_⟩
  · rw [ids_apply]
    exact hw.ids
  · unfold DeletionWorld.apply
    split
    case h_3 messageId metadata _ _ =>
      obtain ⟨message, state, -, hmetadata, hrecords⟩ := hmay
      intro row hrow
      obtain ⟨old, hold, rfl⟩ := List.mem_map.1 hrow
      split_ifs
      · exact (written (proposed_of_stands hstands hrecords) hmetadata).1
      · exact hw.stored old hold
    all_goals exact hw.stored

theorem stands_apply (hw : Sound w) (hstands : g.Stands w i call) (hmay : g.May call ev.op) (hall : w.Allowed ev) :
    (g.step call ev).Stands (w.apply i call ev) i call := by
  have hids : ids w ⊆ ids (w.apply i call ev) := ids_kept
  obtain ⟨op, out, took, hok⟩ := ev
  cases op with
  | listMessages conversationId limit =>
    obtain rfl : g = .reading := hmay
    rcases out with e | rows
    · exact hstands
    · have hcall : w.calls i = {} := hstands
      rcases hfound : pendingDeletion (rows.map toMessage) call.fileId with _ | ⟨message, artifact⟩
      · have hstep : Stage.step call .reading ⟨.listMessages conversationId limit, .ok rows, took, hok⟩ = .reading := by
          simp only [Stage.step, hfound, Option.map_none, Option.getD_none]
        rw [hstep]
        show Function.update w.calls i _ i = {}
        rw [Function.update_self, hfound, hcall]
        rfl
      · have hstep : Stage.step call .reading ⟨.listMessages conversationId limit, .ok rows, took, hok⟩ =
            .found message := by
          simp only [Stage.step, hfound, Option.map_some, Option.getD_some]
        rw [hstep]
        refine ⟨?_, proposed_of_ids hids (proposed_of_listed hw hall hfound)⟩
        show Function.update w.calls i _ i = _
        rw [Function.update_self, hfound, hcall]
        rfl
  | deleteFile fileId =>
    obtain ⟨-, rfl, message, rfl⟩ := hmay
    rcases out with e | found
    · trivial
    · obtain rfl := hok found rfl
      refine ⟨?_, ?_, proposed_of_ids hids hstands.2⟩
      · show (Function.update w.calls i _ i).found = some message
        rw [Function.update_self, hstands.1]
      · show (Function.update w.calls i _ i).deletedRow = true
        rw [Function.update_self]
        rfl
  | updateMessageMeta messageId metadata => trivial
  | _ => exact hstands

theorem answers_of_allowed (hall : w.Allowed ev) : Answers ev := by
  obtain ⟨op, out, took, hok⟩ := ev
  rcases out with e | a
  · cases op <;> exact hall
  · cases op with
    | getFile fileId =>
      intro row hrow
      have hfind : w.files.find? (·.id = fileId) = some row := Eq.trans (Eq.symm hall) hrow
      simpa using List.find?_some hfind
    | _ => trivial

theorem sound_record {row : AiMessageRow} (hw : Sound w) (hnew : row.id ∉ ids w) (hrow : DeletionWorld.Proposes row) :
    Sound { w with messages := w.messages ++ [row] } := by
  refine ⟨?_, fun other hother => ?_⟩
  · show ((w.messages ++ [row]).map (·.id)).Nodup
    rw [List.map_append, List.nodup_append]
    refine ⟨hw.ids, List.nodup_singleton _, fun id hid id' hid' => ?_⟩
    rintro rfl
    obtain rfl := List.mem_singleton.1 hid'
    exact hnew hid
  · rcases List.mem_append.1 hother with hold | hlast
    · exact hw.stored other hold
    · rw [List.mem_singleton.1 hlast]
      exact hrow.1

theorem ids_record {row : AiMessageRow} : ids w ⊆ ids { w with messages := w.messages ++ [row] } := fun _ hid => by
  show _ ∈ (w.messages ++ [row]).map (·.id)
  rw [List.map_append]
  exact List.mem_append_left _ hid

/-- **What the calls know** is kept by every step. -/
theorem knows_preserved : deletionSystem.Preserved Sound Knows fun _ _ _ _ => True where
  start_world := by
    rintro w w' i (call | row | fileId) p hw hspawn
    · obtain ⟨-, rfl⟩ := hspawn
      exact ⟨hw.ids, hw.stored⟩
    · obtain ⟨-, hnew, hrow, rfl⟩ := hspawn
      exact sound_record hw hnew hrow
    · obtain ⟨-, rfl⟩ := hspawn
      exact ⟨hw.ids, hw.stored⟩
  start_thread := by
    rintro w w' i (call | row | fileId) p hw hspawn
    · obtain ⟨rfl, rfl⟩ := hspawn
      exact ⟨.reading, Function.update_self _ _ _, wp_resolveDeletion⟩
    · exact hspawn.1
    · exact hspawn.1
  start_other := by
    rintro w w' i (call | row | fileId) p hw hspawn j tag' q hji hknows
    · obtain ⟨-, rfl⟩ := hspawn
      exact knows_of_ids (Function.update_of_ne hji _ _) (fun _ h => h) hknows
    · obtain ⟨-, -, -, rfl⟩ := hspawn
      exact knows_of_ids (w := w) rfl ids_record hknows
    · obtain ⟨-, rfl⟩ := hspawn
      exact knows_of_ids (w := w) rfl (fun _ h => h) hknows
  act_world := by
    rintro c i (call | row | fileId) op k out took h hw hknows hall -
    · obtain ⟨g, hstands, hmay, -⟩ := hknows
      exact sound_apply hw hstands hmay
    · cases hknows
    · cases hknows
  act_thread := by
    rintro c i (call | row | fileId) op k out took h hw hknows hall -
    · obtain ⟨g, hstands, hmay, hrest⟩ := hknows
      exact ⟨_, stands_apply hw hstands hmay hall, hrest out took h (answers_of_allowed hall)⟩
    · cases hknows
    · cases hknows
  act_other := by
    rintro c i (call | row | fileId) op k out took h hw hknows hall - j tag' q hji hj hother
    · exact knows_of_ids (calls_other hji) ids_kept hother
    · cases hknows
    · cases hknows

end Knows

/-! ## Along a run -/

section Runs

abbrev DeletionConfig : Type := deletionSystem.Config

/-- What the transcript says is so: a proposal is settled once, one that is settled is recorded as deleted exactly if a
confirm of it deleted the file, and one whose file a confirm deleted is pending only while that call is running. -/
structure Handshake (c : DeletionConfig) : Prop where
  once : c.world.resolved.Nodup
  recorded : ∀ row ∈ c.world.messages, ∀ p ∈ proposals row, ¬ Pending p.2 →
    (isStr p.2 "deleted" = true ↔ (row.id, p.1) ∈ c.world.deleted)
  pending : ∀ row ∈ c.world.messages, ∀ p ∈ proposals row, Pending p.2 → (row.id, p.1) ∈ c.world.deleted →
    ∃ i, c.threads i ≠ none ∧ (c.world.calls i).holding = some (row.id, p.1)

/-- The proposal is of the same file, and what was recorded of it stays. -/
def Stays (p p' : String × Option Json) : Prop := p'.1 = p.1 ∧ (¬ Pending p.2 → p'.2 = p.2)

/-- The step deletes the file elsewhere, or for a click that confirms a pending proposal which its call has found. -/
def Confirmed (w : DeletionWorld) (fileId : String) : deletionSystem.Label → Prop
  | .start _ (.discard other) => other = fileId
  | .act i (.resolve call) _ => call.approve = true ∧ call.fileId = fileId ∧ ∃ message, (w.calls i).found = some message ∧
      ∃ recorded, (fileId, recorded) ∈ deletions message.metadata ∧ Pending recorded
  | _ => False

/-- What a step may do to the proposals and the files. -/
structure Proper (c : DeletionConfig) (l : deletionSystem.Label) (c' : DeletionConfig) : Prop where
  stays : ∀ row ∈ c.world.messages, ∃ row' ∈ c'.world.messages, row'.id = row.id ∧
    List.Forall₂ Stays (proposals row) (proposals row')
  confirmed : ∀ fileId, c.world.hasFile fileId → ¬ c'.world.hasFile fileId → Confirmed c.world fileId l

/-- The row to be written has the proposals that the call has read, and the call knows whether its proposal is carried
out. -/
def TimelyWrite (w : DeletionWorld) (i : ℕ) (call : DeletionCall) (messageId : String) : Prop :=
  (∀ message ∈ (w.calls i).found, ∀ row ∈ w.messages, row.id = messageId → proposals row = deletions message.metadata) ∧
  ((w.calls i).deletedRow = true ↔ (messageId, call.fileId) ∈ w.deleted)

/-- A call deletes a file only while its proposal is open, and writes in time. -/
def TimelyAct (w : DeletionWorld) (i : ℕ) (call : DeletionCall) : Event DeletionSig → Prop
  | ⟨.deleteFile fileId, _, true, _⟩ => w.hasFile fileId → ∀ message ∈ (w.calls i).found, (message.id, fileId) ∉ w.resolved
  | ⟨.updateMessageMeta messageId _, _, true, _⟩ => TimelyWrite w i call messageId
  | _ => True

/-- A call that has deleted a file ends only after it has recorded that. -/
def Timely (c : DeletionConfig) (l : deletionSystem.Label) (_ : DeletionConfig) : Prop :=
  match l with
  | .act i (.resolve call) ev => TimelyAct c.world i call ev
  | .exit i => ∀ p ∈ (c.world.calls i).holding, p ∈ c.world.resolved
  | _ => True

/-- What holds of the proposals while the calls are timely; `live` are the threads that run. -/
structure Settled (w : DeletionWorld) (live : ℕ → Prop) : Prop where
  once : w.resolved.Nodup
  pending_iff : ∀ row ∈ w.messages, ∀ p ∈ proposals row, (Pending p.2 ↔ (row.id, p.1) ∉ w.resolved)
  recorded : ∀ row ∈ w.messages, ∀ p ∈ proposals row, ¬ Pending p.2 →
    (isStr p.2 "deleted" = true ↔ (row.id, p.1) ∈ w.deleted)
  running : ∀ p ∈ w.deleted, p ∉ w.resolved → ∃ i, live i ∧ (w.calls i).holding = some p
  known : ∀ p, p ∈ w.resolved ∨ p ∈ w.deleted → p.1 ∈ ids w

variable {w' : DeletionWorld} {live live' : ℕ → Prop} {g : Stage} {message : Message} {ev : Event DeletionSig}

/-- A step that leaves the messages and what has been done, and every call that holds a proposal. -/
structure Quiet (w w' : DeletionWorld) (live live' : ℕ → Prop) : Prop where
  messages : w'.messages = w.messages
  resolved : w'.resolved = w.resolved
  deleted : w'.deleted = w.deleted
  running : ∀ i p, live i → (w.calls i).holding = some p →
    p ∈ w.resolved ∨ live' i ∧ (w'.calls i).holding = some p

theorem settled_of_quiet (hq : Quiet w w' live live') (h : Settled w live) : Settled w' live' where
  once := by
    rw [hq.resolved]
    exact h.once
  pending_iff := by
    rw [hq.messages, hq.resolved]
    exact h.pending_iff
  recorded := by
    rw [hq.messages, hq.deleted]
    exact h.recorded
  running p hdeleted hopen := by
    rw [hq.deleted] at hdeleted
    rw [hq.resolved] at hopen
    obtain ⟨i, hrun, hholding⟩ := h.running p hdeleted hopen
    exact ⟨i, (hq.running i p hrun hholding).resolve_left hopen⟩
  known p hp := by
    rw [hq.resolved, hq.deleted] at hp
    unfold ids
    rw [hq.messages]
    exact h.known p hp

theorem settled_record {row : AiMessageRow} (h : Settled w live) (hnew : row.id ∉ ids w)
    (hrow : DeletionWorld.Proposes row) (hlive : ∀ i, live i → live' i) :
    Settled { w with messages := w.messages ++ [row] } live' := by
  have hunknown : ∀ fileId, (row.id, fileId) ∉ w.resolved := fun fileId hmem => hnew (h.known _ (.inl hmem))
  refine ⟨h.once, fun other hother p hp => ?_, fun other hother p hp hsettled => ?_, fun p hdeleted hopen => ?_,
    fun p hp => ids_record (h.known p hp)⟩
  · rcases List.mem_append.1 hother with hold | hlast
    · exact h.pending_iff other hold p hp
    · obtain rfl := List.mem_singleton.1 hlast
      exact ⟨fun _ => hunknown p.1, fun _ => hrow.2 p hp⟩
  · rcases List.mem_append.1 hother with hold | hlast
    · exact h.recorded other hold p hp hsettled
    · obtain rfl := List.mem_singleton.1 hlast
      exact absurd (hrow.2 p hp) hsettled
  · obtain ⟨i, hrun, hholding⟩ := h.running p hdeleted hopen
    exact ⟨i, hlive i hrun, hholding⟩

/-! ### A file deleted by a call -/

section Delete

variable {fileId : String} {out : Except AssistantError Bool}

theorem holding_deleteFile (hview : w.calls i = ⟨some message, false, none⟩) {removed : Option Proposal}
    (hremoved : removed = if w.hasFile fileId then some (message.id, fileId) else none) :
    ((w.apply i call (.done (.deleteFile fileId) out)).calls i).holding = removed ∧
      (w.apply i call (.done (.deleteFile fileId) out)).deleted = removed.toList ++ w.deleted := by
  have heq : (if w.hasFile fileId then (w.calls i).found.map fun message => (message.id, fileId) else none) = removed := by
    rw [hview, hremoved]
    rfl
  refine ⟨?_, ?_⟩
  · show (Function.update w.calls i _ i).holding = removed
    rw [Function.update_self, heq]
  · show _ ++ _ = _
    rw [heq]

theorem settled_deleteFile (h : Settled w live) (hview : w.calls i = ⟨some message, false, none⟩)
    (hproposed : Proposed w call message)
    (htimely : TimelyAct w i call (.done (.deleteFile fileId) out)) (hi : live' i) (hlive : ∀ j, live j → live' j) :
    Settled (w.apply i call (.done (.deleteFile fileId) out)) live' := by
  have hothers : ∀ j p, live j → (w.calls j).holding = some p →
      live' j ∧ ((w.apply i call (.done (.deleteFile fileId) out)).calls j).holding = some p := by
    intro j p hrun hholding
    have hji : j ≠ i := by
      rintro rfl
      rw [hview] at hholding
      cases hholding
    rw [calls_other hji]
    exact ⟨hlive j hrun, hholding⟩
  by_cases hthere : w.hasFile fileId
  · have hopen : (message.id, fileId) ∉ w.resolved := htimely hthere message (by
      rw [hview]
      exact rfl)
    have hremoved : ((w.apply i call (.done (.deleteFile fileId) out)).calls i).holding = some (message.id, fileId) ∧
        (w.apply i call (.done (.deleteFile fileId) out)).deleted = (message.id, fileId) :: w.deleted :=
      holding_deleteFile hview (if_pos hthere).symm
    obtain ⟨hcall, hdeleted⟩ := hremoved
    refine ⟨h.once, h.pending_iff, fun row hrow p hp hsettled => ?_, fun p hp hopen' => ?_, fun p hp => ?_⟩
    · rw [h.recorded row hrow p hp hsettled, hdeleted, List.mem_cons]
      refine ⟨.inr, fun hmem => hmem.resolve_left fun heq => ?_⟩
      rw [h.pending_iff row hrow p hp, heq] at hsettled
      exact hsettled hopen
    · rw [hdeleted] at hp
      rcases List.mem_cons.1 hp with rfl | hold
      · exact ⟨i, hi, hcall⟩
      · obtain ⟨j, hrun, hholding⟩ := h.running p hold hopen'
        exact ⟨j, hothers j p hrun hholding⟩
    · rw [hdeleted] at hp
      rcases hp with hresolved | hmem
      · exact h.known p (.inl hresolved)
      · rcases List.mem_cons.1 hmem with rfl | hold
        · exact hproposed.listed
        · exact h.known p (.inr hold)
  · have hdeleted : (w.apply i call (.done (.deleteFile fileId) out)).deleted = w.deleted :=
      (holding_deleteFile hview (if_neg hthere).symm).2
    exact settled_of_quiet (w := w) ⟨rfl, rfl, hdeleted, fun j p hrun hholding => .inr (hothers j p hrun hholding)⟩ h

end Delete

/-! ### A state recorded by a call -/

section Update

variable {messageId : String} {metadata : Option String} {state : String}

theorem mem_setMeta {row : AiMessageRow} (h : row ∈ w.setMeta messageId metadata) :
    ∃ old ∈ w.messages, (old.id ≠ messageId ∧ row = old) ∨ (old.id = messageId ∧ row = { old with metadata }) := by
  obtain ⟨old, hold, rfl⟩ := List.mem_map.1 h
  refine ⟨old, hold, ?_⟩
  split_ifs with hid
  · exact .inr ⟨hid, rfl⟩
  · exact .inl ⟨hid, rfl⟩

/-- What a timely call has before it when it writes: its proposal is open, the rows have the proposals that it has read. -/
structure AtWrite (w : DeletionWorld) (call : DeletionCall) (message : Message) (state : String) : Prop where
  proposed : Proposed w call message
  fresh : ∀ row ∈ w.messages, row.id = message.id → proposals row = deletions message.metadata
  open_ : (message.id, call.fileId) ∉ w.resolved
  settles : state ≠ "pending"
  truthful : state = "deleted" ↔ (message.id, call.fileId) ∈ w.deleted

theorem atWrite (h : Settled w live) (hstands : g.Stands w i call) (hrecords : g.Records message state)
    (htimely : TimelyWrite w i call message.id) : AtWrite w call message state := by
  have hproposed := proposed_of_stands hstands hrecords
  have hview : (w.calls i).found = some message ∧ (state = "deleted" ↔ (w.calls i).deletedRow = true) ∧
      state ≠ "pending" := by
    rcases hrecords with ⟨rfl, hstate⟩ | ⟨rfl, rfl⟩
    · rw [hstands.1]
      rcases hstate with rfl | rfl
      · exact ⟨rfl, by simp, by decide⟩
      · exact ⟨rfl, by simp, by decide⟩
    · exact ⟨hstands.1, by simp [hstands.2.1], by decide⟩
  obtain ⟨hfound, hstate, hsettles⟩ := hview
  have hfresh := htimely.1 message hfound
  obtain ⟨row, hrow, hid⟩ := List.mem_map.1 hproposed.listed
  obtain ⟨recorded, hdeletion, hpending⟩ := hproposed.pending
  refine ⟨hproposed, hfresh, ?_, hsettles, hstate.trans htimely.2⟩
  rw [← hfresh row hrow hid] at hdeletion
  have hopen := (h.pending_iff row hrow _ hdeletion).1 hpending
  rwa [hid] at hopen

theorem proposals_setMeta (hw : AtWrite w call message state)
    (hmetadata : metadata = dumpsMeta (some (withDeletionState message.metadata call.fileId state))) {old : AiMessageRow}
    (hold : old ∈ w.messages) (hid : old.id = message.id) :
    proposals { old with metadata } = (proposals old).map (resolveState call.fileId state) := by
  rw [hw.fresh old hold hid]
  exact (written hw.proposed hmetadata).2

theorem not_pending_settled (hstate : state ≠ "pending") : ¬ Pending (some (.str state)) := by
  simpa [Pending, isStr, Json.str?] using hstate

theorem settled_update (h : Settled w live) (hw : AtWrite w call message state)
    (hmetadata : metadata = dumpsMeta (some (withDeletionState message.metadata call.fileId state)))
    (hlive : ∀ j, live j → live' j) :
    Settled { w with
      messages := w.setMeta message.id metadata
      resolved := (message.id, call.fileId) :: w.resolved } live' := by
  have hcases : ∀ row ∈ w.setMeta message.id metadata, ∀ p ∈ proposals row,
      row.id = message.id ∧ p = (call.fileId, some (.str state)) ∨
      (row.id, p.1) ≠ (message.id, call.fileId) ∧ ∃ old ∈ w.messages, old.id = row.id ∧ p ∈ proposals old := by
    intro row hrow p hp
    obtain ⟨old, hold, ⟨hother, rfl⟩ | ⟨hthis, rfl⟩⟩ := mem_setMeta hrow
    · exact .inr ⟨fun heq => hother (Prod.mk.inj heq).1, row, hold, rfl, hp⟩
    · rw [proposals_setMeta hw hmetadata hold hthis] at hp
      obtain ⟨q, hq, rfl⟩ := List.mem_map.1 hp
      by_cases hfile : q.1 = call.fileId
      · have hpending : Pending q.2 := by
          rw [h.pending_iff old hold q hq, hthis, hfile]
          exact hw.open_
        left
        refine ⟨hthis, ?_⟩
        rw [resolveState, if_pos ⟨hfile, hpending⟩, hfile]
      · right
        rw [resolveState, if_neg fun hboth => hfile hboth.1]
        exact ⟨fun heq => hfile (Prod.mk.inj heq).2, old, hold, rfl, hq⟩
  refine ⟨List.nodup_cons.2 ⟨hw.open_, h.once⟩, fun row hrow p hp => ?_, fun row hrow p hp hsettled => ?_,
    fun p hp hopen => ?_, fun p hp => ?_⟩
  · show _ ↔ (row.id, p.1) ∉ (message.id, call.fileId) :: w.resolved
    rw [List.mem_cons]
    rcases hcases row hrow p hp with ⟨hid, rfl⟩ | ⟨hne, old, hold, hid, hq⟩
    · refine ⟨fun hpending => absurd hpending (not_pending_settled hw.settles), fun hnot => ?_⟩
      exact absurd (.inl (by rw [hid])) hnot
    · rw [h.pending_iff old hold p hq, hid]
      exact ⟨fun hopen hmem => hopen (hmem.resolve_left hne), fun hnot hmem => hnot (.inr hmem)⟩
  · rcases hcases row hrow p hp with ⟨hid, rfl⟩ | ⟨-, old, hold, hid, hq⟩
    · rw [hid]
      refine Iff.trans ?_ hw.truthful
      simp [isStr, Json.str?]
    · rw [← hid]
      exact h.recorded old hold p hq hsettled
  · obtain ⟨j, hrun, hholding⟩ := h.running p hp fun hmem => hopen (List.mem_cons_of_mem _ hmem)
    exact ⟨j, hlive j hrun, hholding⟩
  · show p.1 ∈ (w.setMeta message.id metadata).map (·.id)
    rw [ids_setMeta]
    rcases hp with hresolved | hdeleted
    · rcases List.mem_cons.1 hresolved with rfl | hold
      · exact hw.proposed.listed
      · exact h.known p (.inl hold)
    · exact h.known p (.inr hdeleted)

theorem stays_refl (l : List (String × Option Json)) : List.Forall₂ Stays l l :=
  List.forall₂_same.2 fun _ _ => ⟨rfl, fun _ => rfl⟩

theorem stays_update (hw : AtWrite w call message state)
    (hmetadata : metadata = dumpsMeta (some (withDeletionState message.metadata call.fileId state))) :
    ∀ row ∈ w.messages, ∃ row' ∈ w.setMeta message.id metadata, row'.id = row.id ∧
      List.Forall₂ Stays (proposals row) (proposals row') := by
  intro row hrow
  refine ⟨_, List.mem_map.2 ⟨row, hrow, rfl⟩, ?_⟩
  split_ifs with hid
  · refine ⟨rfl, ?_⟩
    rw [proposals_setMeta hw hmetadata hrow hid, List.forall₂_map_right_iff]
    refine List.forall₂_same.2 fun p _ => ?_
    unfold resolveState
    split_ifs with hboth
    · exact ⟨rfl, fun hsettled => absurd hboth.2 hsettled⟩
    · exact ⟨rfl, fun _ => rfl⟩
  · exact ⟨rfl, stays_refl _⟩

end Update

/-! ### Every step -/

section Steps

/-- An exchange deletes a file, records a state, or leaves the tables alone. -/
theorem apply_cases (w : DeletionWorld) (i : ℕ) (call : DeletionCall) (ev : Event DeletionSig) :
    (∃ fileId out hok, ev = ⟨.deleteFile fileId, out, true, hok⟩) ∨
    (∃ messageId metadata out hok, ev = ⟨.updateMessageMeta messageId metadata, out, true, hok⟩) ∨
    (w.apply i call ev).files = w.files ∧ ∀ live, Quiet w (w.apply i call ev) live live := by
  obtain ⟨op, out, took, hok⟩ := ev
  have hsame : ∀ live, Quiet w w live live := fun live => ⟨rfl, rfl, rfl, fun _ _ hrun hholding => .inr ⟨hrun, hholding⟩⟩
  cases op with
  | deleteFile fileId =>
    rcases took with _ | _
    · exact .inr (.inr ⟨rfl, hsame⟩)
    · exact .inl ⟨fileId, out, hok, rfl⟩
  | updateMessageMeta messageId metadata =>
    rcases took with _ | _
    · exact .inr (.inr ⟨rfl, hsame⟩)
    · exact .inr (.inl ⟨messageId, metadata, out, hok, rfl⟩)
  | listMessages conversationId limit =>
    rcases out with e | rows
    · exact .inr (.inr ⟨rfl, hsame⟩)
    · refine .inr (.inr ⟨rfl, fun live => ⟨rfl, rfl, rfl, fun j p hrun hholding => .inr ⟨hrun, ?_⟩⟩⟩)
      show (Function.update w.calls i _ j).holding = some p
      by_cases hji : j = i
      · subst hji
        rw [Function.update_self]
        exact hholding
      · rw [Function.update_of_ne hji]
        exact hholding
  | _ => exact .inr (.inr ⟨rfl, hsame⟩)

/-- The threads that run. -/
def Live (c : DeletionConfig) (i : ℕ) : Prop := c.threads i ≠ none

theorem live_update {c : DeletionConfig} {k : Option (deletionSystem.Tag × Proc DeletionSig Unit)} {world : DeletionWorld}
    (hk : k ≠ none) (hlive : Live c j) : Live ⟨world, Function.update c.threads i k⟩ j := by
  show Function.update c.threads i k j ≠ none
  by_cases hji : j = i
  · rw [hji, Function.update_self]
    exact hk
  · rw [Function.update_of_ne hji]
    exact hlive

theorem stays_of_messages {w' : DeletionWorld} (h : w.messages ⊆ w'.messages) :
    ∀ row ∈ w.messages, ∃ row' ∈ w'.messages, row'.id = row.id ∧ List.Forall₂ Stays (proposals row) (proposals row') :=
  fun row hrow => ⟨row, h hrow, rfl, stays_refl _⟩

theorem confirmed_of_files {w' : DeletionWorld} {l : deletionSystem.Label} (h : w'.files = w.files) :
    ∀ fileId, w.hasFile fileId → ¬ w'.hasFile fileId → Confirmed w fileId l := by
  intro fileId hthere hgone
  unfold DeletionWorld.hasFile at hgone
  rw [h] at hgone
  exact absurd hthere hgone

theorem eq_of_gone {fileId other : String} (hthere : w.hasFile other)
    (hgone : ¬ ∃ file ∈ w.files.filter (·.id ≠ fileId), file.id = other) : fileId = other := by
  by_contra hne
  obtain ⟨file, hfile, rfl⟩ := hthere
  refine hgone ⟨file, List.mem_filter.2 ⟨hfile, ?_⟩, rfl⟩
  simpa using Ne.symm hne

/-- **One step** that is timely. -/
theorem settled_step {c c' : DeletionConfig} {l : deletionSystem.Label}
    (hI : deletionSystem.Inv Sound Knows c) (h : Settled c.world (Live c)) (hs : deletionSystem.Step c l c')
    (htimely : Timely c l c') : Settled c'.world (Live c') ∧ Proper c l c' := by
  cases hs with
  | @start i tag p w hfree hspawn =>
    have hlive : ∀ j, Live c j → Live ⟨w, Function.update c.threads i (some (tag, p))⟩ j := fun j => live_update (Option.some_ne_none _)
    rcases tag with call | row | fileId
    · obtain ⟨-, rfl⟩ := hspawn
      refine ⟨settled_of_quiet (w := c.world) ⟨rfl, rfl, rfl, fun j p hrun hholding => .inr ⟨hlive j hrun, ?_⟩⟩ h, ?_⟩
      · have hji : j ≠ i := by
          rintro rfl
          exact hrun hfree
        exact (congrArg CallView.holding (Function.update_of_ne hji _ _)).trans hholding
      · exact ⟨stays_of_messages (w := c.world) fun _ h => h, confirmed_of_files (w := c.world) rfl⟩
    · obtain ⟨-, hnew, hrow, rfl⟩ := hspawn
      refine ⟨settled_record h hnew hrow hlive, ?_⟩
      exact ⟨stays_of_messages (w := c.world) fun _ h => List.mem_append_left _ h, confirmed_of_files (w := c.world) rfl⟩
    · obtain ⟨-, rfl⟩ := hspawn
      refine ⟨settled_of_quiet (w := c.world) ⟨rfl, rfl, rfl, fun j p hrun hholding => .inr ⟨hlive j hrun, hholding⟩⟩ h, ?_⟩
      exact ⟨stays_of_messages (w := c.world) fun _ h => h, fun other hthere hgone => eq_of_gone hthere hgone⟩
  | @act i tag op k hrun out took hok hall =>
    have hknows := hI.2 i tag _ hrun
    rcases tag with call | row | fileId
    · obtain ⟨g, hstands, hmay, -⟩ := hknows
      have hlive : ∀ j, Live c j → Live ⟨c.world, Function.update c.threads i (some (.resolve call, k out))⟩ j :=
        fun j => live_update (Option.some_ne_none _)
      have hi : Live ⟨c.world, Function.update c.threads i (some (.resolve call, k out))⟩ i := by
        show Function.update c.threads i _ i ≠ none
        rw [Function.update_self]
        exact Option.some_ne_none _
      rcases apply_cases c.world i call ⟨op, out, took, hok⟩ with ⟨fileId, out', hok', heq⟩ |
        ⟨messageId, metadata, out', hok', heq⟩ | ⟨hfiles, hquiet⟩
      · cases heq
        obtain ⟨happrove, hfile, message, rfl⟩ := hmay
        refine ⟨settled_deleteFile h hstands.1 hstands.2 htimely hi hlive,
          stays_of_messages (w := c.world) fun _ h => h, fun other hthere hgone => ?_⟩
        obtain rfl := @eq_of_gone _ fileId _ hthere hgone
        exact ⟨happrove, hfile.symm, message, by rw [hstands.1], hfile ▸ hstands.2.pending⟩
      · cases heq
        obtain ⟨message, state, rfl, hmetadata, hrecords⟩ := hmay
        have hw := atWrite h hstands hrecords htimely
        exact ⟨settled_update h hw hmetadata hlive, stays_update hw hmetadata, confirmed_of_files (w := c.world) rfl⟩
      · refine ⟨settled_of_quiet ⟨(hquiet (Live c)).messages, (hquiet (Live c)).resolved, (hquiet (Live c)).deleted, ?_⟩ h,
          stays_of_messages (w := c.world) ?_, confirmed_of_files (w := c.world) hfiles⟩
        · intro j p hrun hholding
          exact ((hquiet (Live c)).running j p hrun hholding).imp_right fun hstill => ⟨hlive j hstill.1, hstill.2⟩
        · exact (hquiet (Live c)).messages ▸ fun _ h => h
    · cases hknows
    · cases hknows
  | @exit i =>
    refine ⟨settled_of_quiet (w := c.world) ⟨rfl, rfl, rfl, fun j p hrun hholding => ?_⟩ h, ?_⟩
    · by_cases hji : j = i
      · subst hji
        exact .inl (htimely p hholding)
      · refine .inr ⟨?_, hholding⟩
        show Function.update c.threads i none j ≠ none
        rw [Function.update_of_ne hji]
        exact hrun
    · exact ⟨stays_of_messages (w := c.world) fun _ h => h, confirmed_of_files (w := c.world) rfl⟩

/-- Nothing has been proposed yet. -/
structure Opening (w : DeletionWorld) : Prop where
  messages : w.messages = []
  calls : w.calls = fun _ => {}
  resolved : w.resolved = []
  deleted : w.deleted = []

end Steps

/-- **Clicks that come in time** settle each proposal once, record of it what has happened, and never change that. -/
theorem deletions_settled {w : DeletionWorld} (hw : Opening w) {tr : List (deletionSystem.Label × DeletionConfig)}
    (hs : deletionSystem.Steps ⟨w, fun _ => none⟩ tr) (htimely : Along Timely ⟨w, fun _ => none⟩ tr) :
    Along (fun c l c' => Handshake c' ∧ Proper c l c') ⟨w, fun _ => none⟩ tr := by
  have hsound : Sound w := by
    refine ⟨?_, ?_⟩
    · simp [ids, hw.messages]
    · simp [hw.messages]
  have hsettled : Settled w (Live ⟨w, fun _ => none⟩) := by
    refine ⟨?_, ?_, ?_, ?_, ?_⟩ <;> simp [hw.messages, hw.resolved, hw.deleted]
  have hknown : deletionSystem.Inv Sound Knows ⟨w, fun _ => none⟩ := ⟨hsound, fun _ _ _ h => by cases h⟩
  refine along_of_step (I := fun c => deletionSystem.Inv Sound Knows c ∧ Settled c.world (Live c)) ?_ ⟨hknown, hsettled⟩ hs
    htimely
  rintro c l c' ⟨hI, h⟩ hstep ht
  obtain ⟨h', hproper⟩ := settled_step hI h hstep ht
  refine ⟨⟨inv_step knows_preserved hI hstep ?_, h'⟩, ⟨h'.once, h'.recorded, fun row hrow p hp hpending hdeleted => ?_⟩, hproper⟩
  · cases l <;> trivial
  · exact h'.running _ hdeleted ((h'.pending_iff row hrow p hp).1 hpending)

end Runs

/-! ## Concrete runs -/

section Concrete

def newestFirst (rows : List AiMessageRow) (conversationId : String) : List AiMessageRow :=
  (rows.filter (·.conversationId = conversationId)).insertionSort fun row older => older.position ≤ row.position

theorem listed_newestFirst {rows : List AiMessageRow} {conversationId : String} {limit : ℕ} :
    Listed rows conversationId limit ((newestFirst rows conversationId).take limit).reverse := by
  have htotal : Std.Total fun row older : AiMessageRow => older.position ≤ row.position :=
    ⟨fun row older => le_total older.position row.position⟩
  have htrans : IsTrans AiMessageRow fun row older => older.position ≤ row.position := ⟨fun _ _ _ h h' => h'.trans h⟩
  exact ⟨_, List.perm_insertionSort _ _, List.pairwise_insertionSort _ _, rfl⟩

/-- Every statement answers from the tables, and removing an object works. -/
def tableReply (w : DeletionWorld) : (op : DeletionOp) → op.Ans
  | .getConversation conversationId userId =>
    w.conversations.find? fun row => row.id = conversationId ∧ row.userId = userId
  | .listMessages conversationId limit => ((newestFirst w.messages conversationId).take limit).reverse
  | .getFile fileId => w.files.find? (·.id = fileId)
  | .removeObject _ => true
  | .deleteFile fileId => decide (w.hasFile fileId)
  | .updateMessageMeta messageId _ => decide (∃ row ∈ w.messages, row.id = messageId)

def answered (w : DeletionWorld) : Event DeletionSig → Bool
  | ⟨_, .error _, _, _⟩ => false
  | ⟨.getConversation conversationId userId, .ok row, _, _⟩ =>
    row = tableReply w (.getConversation conversationId userId)
  | ⟨.listMessages conversationId limit, .ok rows, _, _⟩ => rows = tableReply w (.listMessages conversationId limit)
  | ⟨.getFile fileId, .ok row, _, _⟩ => row = tableReply w (.getFile fileId)
  | ⟨.removeObject _, .ok _, _, _⟩ => true
  | ⟨.deleteFile fileId, .ok found, _, _⟩ => found = tableReply w (.deleteFile fileId)
  | ⟨.updateMessageMeta messageId metadata, .ok found, _, _⟩ =>
    found = tableReply w (.updateMessageMeta messageId metadata)

theorem allowed_of_answered (h : answered w ev = true) : w.Allowed ev := by
  obtain ⟨op, out, took, hok⟩ := ev
  rcases out with e | a
  · cases op <;> cases h
  · cases op with
    | getConversation conversationId userId =>
      obtain rfl : a = tableReply w (.getConversation conversationId userId) := of_decide_eq_true h
      rfl
    | listMessages conversationId limit =>
      obtain rfl : a = tableReply w (.listMessages conversationId limit) := of_decide_eq_true h
      exact listed_newestFirst
    | getFile fileId =>
      obtain rfl : a = tableReply w (.getFile fileId) := of_decide_eq_true h
      rfl
    | removeObject objectKey => trivial
    | deleteFile fileId =>
      obtain rfl : a = tableReply w (.deleteFile fileId) := of_decide_eq_true h
      exact decide_eq_true_iff
    | updateMessageMeta messageId metadata =>
      obtain rfl : a = tableReply w (.updateMessageMeta messageId metadata) := of_decide_eq_true h
      exact decide_eq_true_iff

def tableDriver : deletionSystem.Driver where
  reply w op := .ok (tableReply w op)
  check w _ _ ev := answered w ev
  sound h := allowed_of_answered h

def click (call : DeletionCall) (i : ℕ) : deletionSystem.Starter i where
  start w := some (.resolve call, thread (resolveDeletion call), { w with calls := Function.update (DeletionWorld.calls w) i {} })
  sound h := by
    cases h
    exact ⟨rfl, rfl⟩

def proposedDeletion : Artifact := ⟨"delete", "f-1", "notes.txt", [("state", .str "pending")]⟩

/-- A message that proposes to delete the file. -/
def proposal : AiMessageRow where
  id := "m-1"
  conversationId := "c-1"
  position := 0
  role := .assistant
  content := ""
  toolName := none
  metadata := dumpsMeta (some [("artifacts", .arr [proposedDeletion.toDict])])

theorem distinct_proposed : (Json.obj [("artifacts", .arr [proposedDeletion.toDict])]).Distinct := by
  simp [Artifact.toDict, proposedDeletion, Json.Distinct, DistinctItems, DistinctEntries, DistinctEntry]

theorem metadata_proposal : (toMessage proposal).metadata = some [("artifacts", .arr [proposedDeletion.toDict])] := by
  simp only [toMessage, proposal]
  exact loads_dumpsMeta distinct_proposed (List.cons_ne_nil _ _)

theorem proposes_proposal : DeletionWorld.Proposes proposal := by
  refine ⟨.inr ⟨_, distinct_proposed, List.cons_ne_nil _ _, rfl⟩, ?_⟩
  rw [metadata_proposal]
  decide +kernel

def propose (i : ℕ) : deletionSystem.Starter i where
  start w := if proposal.id ∈ ids w then none else
    some (.record proposal, .ret (), { w with messages := DeletionWorld.messages w ++ [proposal] })
  sound h := by
    split_ifs at h with hnew
    cases h
    exact ⟨rfl, hnew, proposes_proposal, rfl⟩

def notes : UserFile where
  id := "f-1"
  userId := 7
  folderId := none
  fileKey := "uploads/f-1"
  fileName := "notes.txt"
  fileExtension := "txt"
  fileSizeBytes := 3
  mimeType := "text/plain"
  createdAt := 0

def oneFile : DeletionWorld where
  conversations := [⟨"c-1", 7, "Notes"⟩]
  files := [notes]

theorem opening_oneFile : Opening oneFile := ⟨rfl, rfl, rfl, rfl⟩

def confirm : DeletionCall := ⟨7, "c-1", "f-1", true⟩

def cancel : DeletionCall := ⟨7, "c-1", "f-1", false⟩

/-- So many exchanges of a thread. -/
def moves (i : ℕ) : ℕ → List deletionSystem.Move
  | 0 => []
  | n + 1 => .go i :: moves i n

instance decidableTimelyWrite (w : DeletionWorld) (i : ℕ) (call : DeletionCall) (messageId : String) :
    Decidable (TimelyWrite w i call messageId) := inferInstanceAs (Decidable (_ ∧ _))

instance decidableTimelyAct (w : DeletionWorld) (i : ℕ) (call : DeletionCall) :
    ∀ ev : Event DeletionSig, Decidable (TimelyAct w i call ev)
  | ⟨.deleteFile fileId, _, true, _⟩ =>
    inferInstanceAs (Decidable (w.hasFile fileId → ∀ message ∈ (w.calls i).found, (message.id, fileId) ∉ w.resolved))
  | ⟨.updateMessageMeta messageId _, _, true, _⟩ => decidableTimelyWrite w i call messageId
  | ⟨.deleteFile _, _, false, _⟩ | ⟨.updateMessageMeta _ _, _, false, _⟩ | ⟨.getConversation _ _, _, _, _⟩
  | ⟨.listMessages _ _, _, _, _⟩ | ⟨.getFile _, _, _, _⟩ | ⟨.removeObject _, _, _, _⟩ => isTrue trivial

instance decidableTimely (c : DeletionConfig) : ∀ (l : deletionSystem.Label) (c' : DeletionConfig), Decidable (Timely c l c')
  | .act i (.resolve call) ev, _ => decidableTimelyAct c.world i call ev
  | .exit i, _ => inferInstanceAs (Decidable (∀ p ∈ (DeletionWorld.calls c.world i).holding, p ∈ DeletionWorld.resolved c.world))
  | .start _ _, _ | .act _ (.record _) _, _ | .act _ (.discard _) _, _ => isTrue trivial

def confirmed : List (deletionSystem.Label × DeletionConfig) :=
  Sys.drive tableDriver ⟨oneFile, fun _ => none⟩ (.start 0 (propose 0) :: .start 1 (click confirm 1) :: moves 1 7 ++ [.exit 1])

theorem deletions_settled_confirmed : confirmed.length = 10 ∧
    Along (fun c l c' => Handshake c' ∧ Proper c l c') ⟨oneFile, fun _ => none⟩ confirmed := by
  -- The length and the times are read off one evaluation of the run.
  have hrun : confirmed.length = 10 ∧ Along Timely ⟨oneFile, fun _ => none⟩ confirmed :=
    @of_decide_eq_true _ (@instDecidableAnd _ _ _ (@decidableAlong _ _ _ decidableTimely _ _)) (by decide +kernel)
  exact ⟨hrun.1, deletions_settled opening_oneFile (steps_drive tableDriver _ _) hrun.2⟩

/-- Both clicks read the proposal, the file is deleted, and the cancel writes. -/
def cancelRaces : List (deletionSystem.Label × DeletionConfig) :=
  Sys.drive tableDriver ⟨oneFile, fun _ => none⟩ (.start 0 (propose 0) :: .start 1 (click confirm 1) :: .start 2 (click cancel 2) ::
    moves 1 2 ++ moves 2 2 ++ moves 1 4 ++ moves 2 1)

/-- What the transcript says at the end: the proposal was cancelled, and a click deleted its file. -/
def SaysKept (w : DeletionWorld) : Prop :=
  ∃ row ∈ w.messages, ∃ p ∈ proposals row, isStr p.2 "cancelled" = true ∧ (row.id, p.1) ∈ w.deleted

instance decidableSaysKept (w : DeletionWorld) : Decidable (SaysKept w) :=
  inferInstanceAs (Decidable (∃ row ∈ w.messages, ∃ p ∈ proposals row,
    isStr p.2 "cancelled" = true ∧ (row.id, p.1) ∈ w.deleted))

theorem cancelRaces_ends : SaysKept (lastConfig ⟨oneFile, fun _ => none⟩ cancelRaces).world :=
  @of_decide_eq_true _ (decidableSaysKept _) (by decide +kernel)

theorem not_handshake_of_saysKept {c : DeletionConfig} (h : SaysKept c.world) : ¬ Handshake c := by
  rintro ⟨-, hrecorded, -⟩
  obtain ⟨row, hrow, p, hp, hcancelled, hdeleted⟩ := h
  have hstate : p.2.bind Json.str? = some "cancelled" := by simpa [isStr] using hcancelled
  have hsettled : ¬ Pending p.2 := by simp [Pending, isStr, hstate]
  have hsays := (hrecorded row hrow p hp hsettled).2 hdeleted
  simp [isStr, hstate] at hsays

/-- **A cancel that races a confirm**: the file is deleted, and the transcript says that it was kept. -/
theorem cancel_overwrites : Opening oneFile ∧ deletionSystem.Steps ⟨oneFile, fun _ => none⟩ cancelRaces ∧
    SaysKept (lastConfig ⟨oneFile, fun _ => none⟩ cancelRaces).world ∧
    ¬ Along (fun c l c' => Handshake c' ∧ Proper c l c') ⟨oneFile, fun _ => none⟩ cancelRaces := by
  refine ⟨opening_oneFile, steps_drive tableDriver _ _, cancelRaces_ends, fun h => ?_⟩
  have hstart : Handshake ⟨oneFile, fun _ => none⟩ := by
    refine ⟨List.nodup_nil, ?_, ?_⟩ <;> simp [oneFile]
  have hall : Along (fun _ _ c' => Handshake c') ⟨oneFile, fun _ => none⟩ cancelRaces := along_mono (fun _ _ _ h => h.1) h
  exact not_handshake_of_saysKept cancelRaces_ends (last_of_along hstart hall)

end Concrete

end Transform.Assistant
