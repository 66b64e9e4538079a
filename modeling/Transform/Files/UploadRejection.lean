import Transform.Files.Upload

/-!
# Files.UploadRejection — the object of a rejected upload

A rejected upload has its object removed.  Three of the four rejections come before the lookup that finds a session
finalized already, and the fourth looks only for a row of the caller: a file that is stored loses its object when its
session is finalized again and rejected (`removes_stored_iff`).
-/

namespace Transform.Files

open Lib Conversions Billing

/-! ## The library and the bucket -/

section Library

/-- What a finalize call finds. -/
structure Library where
  files : List UserFile
  folders : List UserFolder
  tiers : ℤ → SubscriptionTier
  stats : String → Option ObjectStat
  heads : String → Bytes

namespace Library

variable (lib : Library) (ctx : UploadContext) (userId : ℤ) (session : UploadSession)

def size : ℤ := (lib.stats session.objectKey).elim 0 (·.size)

/-- What is read is what there is; whatever is asked for may raise. -/
def Answers : Event FileSig → Prop
  | ⟨.statObject objectKey, .ok stats, _, _⟩ => stats = lib.stats objectKey
  | ⟨.readObjectHead objectKey, .ok head, _, _⟩ => head = lib.heads objectKey
  | ⟨.getTierForUser userId, .ok tier, _, _⟩ => tier = lib.tiers userId
  | ⟨.getFolder folderId, .ok folder, _, _⟩ => folder = lib.folders.find? (·.id = folderId)
  | ⟨.findByKey userId fileKey, .ok row, _, _⟩ => row = lib.files.find? (·.hasKey userId fileKey)
  | ⟨.getUserStorageUsed userId, .ok used, _, _⟩ => used = storageUsed userId lib.files
  | _ => True

def Stored (fileKey : String) : Prop := ∃ row ∈ lib.files, row.fileKey = fileKey

def TooLarge : Prop := ctx.sizeLimits (lib.tiers userId) < lib.size session

/-- The leading bytes contradict the name. -/
def Mismatched : Prop :=
  lib.heads session.objectKey ≠ [] ∧ validateUploadSignature (lib.heads session.objectKey)
    (extensionFromFilename ((truthy session.fileName).getD session.objectKey)) = false

/-- The target folder is gone, or is not the caller's. -/
def FolderGone : Prop :=
  ∃ folderId ∈ session.folderId, ∀ folder ∈ lib.folders.find? (·.id = folderId), folder.userId ≠ userId

/-- The caller has no row of the key, and no room for another. -/
def NoRoom : Prop :=
  lib.files.find? (·.hasKey userId session.objectKey) = none ∧
    ∃ decision, evaluateStorageQuota (TierPolicy.forTier (lib.tiers userId)).storageQuotaBytes
      (storageUsed userId lib.files) (lib.size session) = .ok decision ∧ decision.allowed = false

end Library

end Library

/-! ## What a call asks -/

section Traces

/-- A call raised. -/
def raises : Event FileSig → Bool
  | ⟨_, .error _, _, _⟩ => true
  | _ => false

def FileOp.isHead : FileOp → Bool
  | .readObjectHead _ => true
  | _ => false

def FileOp.isRemove : FileOp → Bool
  | .removeObject _ => true
  | _ => false

/-- The leading bytes could not be read. -/
def HeadLost (tr : List (Event FileSig)) : Prop := ∃ ev ∈ tr, raises ev = true ∧ FileOp.isHead ev.op = true

/-- A call raised that the finalize call depends on. -/
def Interrupted (tr : List (Event FileSig)) : Prop :=
  ∃ ev ∈ tr, raises ev = true ∧ FileOp.isHead ev.op = false ∧ FileOp.isRemove ev.op = false

/-- The removal of an object was asked for whose key a row has. -/
def RemovesStored (lib : Library) (tr : List (Event FileSig)) : Prop :=
  ∃ ev ∈ tr, ∃ objectKey, ev.op = .removeObject objectKey ∧ lib.Stored objectKey

/-- The upload fails one of its checks; the type is not checked where the leading bytes cannot be read. -/
def Rejected (lib : Library) (ctx : UploadContext) (userId : ℤ) (session : UploadSession) (tr : List (Event FileSig)) :
    Prop :=
  lib.TooLarge ctx userId session ∨ (lib.Mismatched session ∧ ¬ HeadLost tr) ∨ lib.FolderGone userId session ∨
    lib.NoRoom userId session

/-- What is shown of a finalize call. -/
def Settled (lib : Library) (ctx : UploadContext) (userId : ℤ) (session : UploadSession) (tr : List (Event FileSig)) : Prop :=
  RemovesStored lib tr ↔ lib.Stored session.objectKey ∧ Rejected lib ctx userId session tr ∧ ¬ Interrupted tr

/-- No removal was asked for, and nothing raised but the read of the leading bytes. -/
def Going (tr : List (Event FileSig)) : Prop :=
  ∀ ev ∈ tr, FileOp.isRemove ev.op = false ∧ (raises ev = true → FileOp.isHead ev.op = true)

variable {lib : Library} {ctx : UploadContext} {userId : ℤ} {session : UploadSession} {tr : List (Event FileSig)}
  {ev : Event FileSig}

theorem going_append (h : Going tr) (hremove : FileOp.isRemove ev.op = false)
    (hraises : raises ev = true → FileOp.isHead ev.op = true) : Going (tr ++ [ev]) := by
  intro e he
  rcases List.mem_append.1 he with he | he
  · exact h e he
  · rw [List.mem_singleton.1 he]
    exact ⟨hremove, hraises⟩

theorem headLost_append : HeadLost (tr ++ [ev]) ↔ HeadLost tr ∨ raises ev = true ∧ FileOp.isHead ev.op = true := by
  unfold HeadLost
  simp only [List.mem_append, List.mem_singleton, or_and_right, exists_or, exists_eq_left]

theorem interrupted_append : Interrupted (tr ++ [ev]) ↔
    Interrupted tr ∨ raises ev = true ∧ FileOp.isHead ev.op = false ∧ FileOp.isRemove ev.op = false := by
  unfold Interrupted
  simp only [List.mem_append, List.mem_singleton, or_and_right, exists_or, exists_eq_left]

theorem not_interrupted_of_going (h : Going tr) : ¬ Interrupted tr := by
  rintro ⟨ev, hev, hraises, hhead, -⟩
  rw [(h ev hev).2 hraises] at hhead
  cases hhead

theorem not_removes_of_kept (h : ∀ ev ∈ tr, FileOp.isRemove ev.op = false) : ¬ RemovesStored lib tr := by
  rintro ⟨ev, hev, objectKey, hop, -⟩
  have hkept := h ev hev
  rw [hop] at hkept
  cases hkept

/-- The call ends with the removal of a rejected upload. -/
theorem settled_of_removed (h : Going tr) (hop : ev.op = .removeObject session.objectKey)
    (hrejected : Rejected lib ctx userId session tr) : Settled lib ctx userId session (tr ++ [ev]) := by
  have hhead : HeadLost (tr ++ [ev]) ↔ HeadLost tr := by
    rw [headLost_append, or_iff_left]
    rintro ⟨-, hh⟩
    rw [hop] at hh
    cases hh
  have hgoing : ¬ Interrupted (tr ++ [ev]) := by
    rw [interrupted_append]
    rintro (hi | ⟨-, -, hr⟩)
    · exact not_interrupted_of_going h hi
    · rw [hop] at hr
      cases hr
  have hrej : Rejected lib ctx userId session (tr ++ [ev]) := by
    unfold Rejected at hrejected ⊢
    rw [hhead]
    exact hrejected
  constructor
  · rintro ⟨e, he, objectKey, hop', hstored⟩
    refine ⟨?_, hrej, hgoing⟩
    rcases List.mem_append.1 he with he | he
    · have hkept := (h e he).1
      rw [hop'] at hkept
      cases hkept
    · rw [List.mem_singleton.1 he, hop] at hop'
      cases hop'
      exact hstored
  · rintro ⟨hstored, -, -⟩
    exact ⟨ev, List.mem_append_right _ (List.mem_singleton.2 rfl), _, hop, hstored⟩

/-- The call ends with an exception. -/
theorem settled_of_interrupted (h : Going tr) (hraises : raises ev = true) (hhead : FileOp.isHead ev.op = false)
    (hremove : FileOp.isRemove ev.op = false) : Settled lib ctx userId session (tr ++ [ev]) := by
  refine iff_of_false (not_removes_of_kept fun e he => ?_) fun hs =>
    hs.2.2 (interrupted_append.2 (.inr ⟨hraises, hhead, hremove⟩))
  rcases List.mem_append.1 he with he | he
  · exact (h e he).1
  · rw [List.mem_singleton.1 he]
    exact hremove

theorem settled_of_passed (hkept : ∀ ev ∈ tr, FileOp.isRemove ev.op = false) (hpassed : ¬ Rejected lib ctx userId session tr) :
    Settled lib ctx userId session tr :=
  iff_of_false (not_removes_of_kept hkept) fun hs => hpassed hs.2.1

end Traces

/-! ## The checks -/

section Checks

variable {lib : Library} {ctx : UploadContext} {userId : ℤ} {session : UploadSession} {tr : List (Event FileSig)}

theorem wpe_read {op : FileOp} {Q : op.Ans → List (Event FileSig) → Prop} (h : Going tr) (hhead : op.isHead = false)
    (hremove : op.isRemove = false)
    (hQ : ∀ a, lib.Answers (.done op (.ok a)) → Going (tr ++ [.done op (.ok a)]) → Q a (tr ++ [.done op (.ok a)])) :
    wpe (.recording lib.Answers) (call op) Q (fun _ tr => Settled lib ctx userId session tr) tr := by
  unfold call
  rw [wpe_mapError]
  refine wpe_ask.2 ⟨trivial, fun a ha => hQ a ha (going_append h hremove fun hr => ?_), fun e took hk _ => ?_⟩
  · cases hr
  · exact settled_of_interrupted h rfl hhead hremove

theorem wpe_reject_settled {e : UploadError} {Q : Unit → List (Event FileSig) → Prop} (h : Going tr)
    (hrejected : Rejected lib ctx userId session tr) :
    wpe (.recording lib.Answers) (reject session.objectKey e) Q (fun _ tr => Settled lib ctx userId session tr) tr := by
  unfold reject call
  rw [wpe_bind, wpe_mapError]
  exact wpe_ask.2 ⟨trivial, fun _ _ => settled_of_removed h rfl hrejected,
    fun _ _ _ _ => settled_of_removed h rfl hrejected⟩

theorem checkFileSize_settled (h : Going tr) :
    wpe (.recording lib.Answers) (checkFileSize ctx session (lib.tiers userId) (lib.size session))
      (fun _ tr' => tr' = tr ∧ ¬ lib.TooLarge ctx userId session) (fun _ tr => Settled lib ctx userId session tr) tr := by
  unfold checkFileSize
  dsimp only
  split_ifs with hsize
  · exact wpe_reject_settled h (.inl hsize)
  · exact ⟨rfl, hsize⟩

theorem checkSignature_settled (h : Going tr) (hhead : ¬ HeadLost tr) :
    wpe (.recording lib.Answers) (checkSignature session)
      (fun _ tr => Going tr ∧ (lib.Mismatched session → HeadLost tr))
      (fun _ tr => Settled lib ctx userId session tr) tr := by
  unfold checkSignature call
  rw [wpe_bind, wpe_tryCatch, wpe_mapError]
  refine wpe_ask.2 ⟨trivial, fun head ha => ?_, fun e took hk _ => ?_⟩
  · obtain rfl : head = lib.heads session.objectKey := ha
    have hgoing : Going (tr ++ [.done (.readObjectHead session.objectKey) (.ok (lib.heads session.objectKey))]) :=
      going_append h rfl fun hr => by cases hr
    dsimp only
    split_ifs with hmismatch
    · refine wpe_reject_settled hgoing (.inr (.inl ⟨hmismatch, fun hlost => ?_⟩))
      rcases headLost_append.1 hlost with hl | ⟨hr, -⟩
      · exact hhead hl
      · cases hr
    · exact ⟨hgoing, fun hm => absurd hm hmismatch⟩
  · rw [wpe_pure]
    dsimp only
    rw [if_neg fun hm => hm.1 rfl]
    exact ⟨going_append h rfl fun _ => rfl, fun _ => headLost_append.2 (.inr ⟨rfl, rfl⟩)⟩

theorem checkFolder_settled (h : Going tr) (hmismatch : lib.Mismatched session → HeadLost tr) :
    wpe (.recording lib.Answers) (checkFolder userId session)
      (fun _ tr => Going tr ∧ (lib.Mismatched session → HeadLost tr) ∧ ¬ lib.FolderGone userId session)
      (fun _ tr => Settled lib ctx userId session tr) tr := by
  unfold checkFolder
  split
  · rename_i hnone
    refine ⟨h, hmismatch, ?_⟩
    rintro ⟨folderId, hid, -⟩
    rw [hnone] at hid
    cases hid
  · rename_i folderId hid
    unfold getFolder call
    rw [wpe_tryCatch, wpe_bind, wpe_bind, wpe_mapError]
    refine wpe_ask.2 ⟨trivial, fun folder ha => ?_, fun e took hk _ => settled_of_interrupted h rfl rfl rfl⟩
    have hgoing : Going (tr ++ [.done (.getFolder folderId) (.ok folder)]) := going_append h rfl fun hr => by cases hr
    have hread : folder = lib.folders.find? (·.id = folderId) := ha
    have hgone : (∀ found ∈ folder, found.userId ≠ userId) → lib.FolderGone userId session := fun hf =>
      ⟨folderId, hid, fun found hfound => hf found (hread ▸ hfound)⟩
    rcases folder with _ | folder
    · exact wpe_reject_settled hgoing (.inr (.inr (.inl (hgone fun _ hf => by cases hf))))
    · dsimp only
      split_ifs with howner
      · refine ⟨hgoing, fun hm => headLost_append.2 (.inl (hmismatch hm)), ?_⟩
        rintro ⟨folderId', hid', hother⟩
        rw [hid] at hid'
        cases hid'
        rw [← hread] at hother
        exact hother folder rfl howner
      · refine wpe_reject_settled hgoing (.inr (.inr (.inl (hgone fun found hf => ?_))))
        cases hf
        exact howner

/-- What an upload has passed before its lookup. -/
structure Checked (lib : Library) (ctx : UploadContext) (userId : ℤ) (session : UploadSession) (tr : List (Event FileSig)) :
    Prop where
  going : Going tr
  size : ¬ lib.TooLarge ctx userId session
  type : lib.Mismatched session → HeadLost tr
  folder : ¬ lib.FolderGone userId session

theorem checked_append {ev : Event FileSig} (h : Checked lib ctx userId session tr) (hgoing : Going (tr ++ [ev])) :
    Checked lib ctx userId session (tr ++ [ev]) where
  going := hgoing
  size := h.size
  type hm := headLost_append.2 (.inl (h.type hm))
  folder := h.folder

theorem not_rejected_of_checked (h : Checked lib ctx userId session tr) (hroom : ¬ lib.NoRoom userId session) :
    ¬ Rejected lib ctx userId session tr := by
  rintro (hs | ⟨hm, hl⟩ | hf | hr)
  · exact h.size hs
  · exact hl (h.type hm)
  · exact h.folder hf
  · exact hroom hr

def Keeping (op : FileOp) : Prop := op.isRemove = false

/-- Nothing that a passed upload asks for removes anything. -/
theorem wpe_passed {p : FileM String} (hp : p.Only Keeping) (h : Checked lib ctx userId session tr)
    (hroom : ¬ lib.NoRoom userId session) :
    wpe (.recording lib.Answers) p (fun _ tr => Settled lib ctx userId session tr)
      (fun _ tr => Settled lib ctx userId session tr) tr := by
  refine wpe_of_only_inv (R := fun tr => (∀ ev ∈ tr, FileOp.isRemove ev.op = false) ∧ ¬ Rejected lib ctx userId session tr)
    hp (fun _ _ _ _ => trivial) ?_ ?_ ?_ ⟨fun ev hev => (h.going ev hev).1, not_rejected_of_checked h hroom⟩
  · rintro tr ev ⟨hkept, hpassed⟩ hop -
    refine ⟨fun e he => ?_, ?_⟩
    · rcases List.mem_append.1 he with he | he
      · exact hkept e he
      · rw [List.mem_singleton.1 he]
        exact hop
    · rintro (hs | ⟨hm, hl⟩ | hf | hr)
      · exact hpassed (.inl hs)
      · exact hpassed (.inr (.inl ⟨hm, fun hl' => hl (headLost_append.2 (.inl hl'))⟩))
      · exact hpassed (.inr (.inr (.inl hf)))
      · exact hpassed (.inr (.inr (.inr hr)))
  · exact fun _ tr h => settled_of_passed h.1 h.2
  · exact fun _ tr h => settled_of_passed h.1 h.2

theorem call_keeps {op : FileOp} (h : op.isRemove = false) : (call op).Only Keeping :=
  only_tryCatch (only_ask h) fun _ => only_throw

theorem saveUpload_keeps (size : ℤ) (contentType : Option String) :
    (saveUpload userId session size contentType).Only Keeping := by
  unfold saveUpload save
  refine only_bind (call_keeps rfl) fun id => only_bind (call_keeps rfl) fun now => ?_
  exact only_bind (call_keeps rfl) fun _ => only_pure

theorem insertUpload_settled {contentType : Option String} (h : Checked lib ctx userId session tr)
    (hnone : lib.files.find? (·.hasKey userId session.objectKey) = none) :
    wpe (.recording lib.Answers) (insertUpload userId session (lib.tiers userId) (lib.size session) contentType)
      (fun _ tr => Settled lib ctx userId session tr) (fun _ tr => Settled lib ctx userId session tr) tr := by
  unfold insertUpload checkQuota
  simp only [wpe_bind]
  refine wpe_read h.going rfl rfl fun _ _ hgoing => ?_
  have h := checked_append h hgoing
  refine wpe_read h.going rfl rfl fun used hused hgoing => ?_
  have h := checked_append h hgoing
  obtain rfl : used = storageUsed userId lib.files := hused
  rw [wpe_mapError]
  refine wpe_ofExcept (fun decision hdecision => ?_) fun e he => ?_
  · split_ifs with hallowed
    · refine wpe_passed (saveUpload_keeps _ _) h ?_
      rintro ⟨-, decision', hdecision', hrefused⟩
      rw [hdecision] at hdecision'
      cases hdecision'
      rw [hallowed] at hrefused
      cases hrefused
    · exact wpe_reject_settled h.going (.inr (.inr (.inr ⟨hnone, decision, hdecision, by simpa using hallowed⟩)))
  · refine settled_of_passed (fun ev hev => (h.going ev hev).1) (not_rejected_of_checked h ?_)
    rintro ⟨-, decision', hdecision', -⟩
    rw [he] at hdecision'
    cases hdecision'

theorem completeUpload_settled :
    wpe (.recording lib.Answers) (completeUpload ctx userId session) (fun _ tr => Settled lib ctx userId session tr)
      (fun _ tr => Settled lib ctx userId session tr) [] := by
  have hnil : Going [] := fun ev hev => by cases hev
  unfold completeUpload
  simp only [wpe_bind]
  refine wpe_read hnil rfl rfl fun stats hstats hgoing => ?_
  obtain rfl : stats = lib.stats session.objectKey := hstats
  refine wpe_read hgoing rfl rfl fun tier htier hgoing => ?_
  obtain rfl : tier = lib.tiers userId := htier
  refine wpe_mono (checkFileSize_settled hgoing) ?_ fun _ _ h => h
  rintro - tr ⟨rfl, hsize⟩
  have hunread : ¬ HeadLost ([] ++ [.done (.statObject session.objectKey) (.ok (lib.stats session.objectKey))] ++
      [.done (.getTierForUser userId) (.ok (lib.tiers userId))]) := by
    rw [headLost_append, headLost_append]
    rintro ((⟨ev, hev, -⟩ | ⟨hr, -⟩) | ⟨hr, -⟩)
    · cases hev
    · cases hr
    · cases hr
  refine wpe_mono (checkSignature_settled hgoing hunread) ?_ fun _ _ h => h
  rintro - tr ⟨hgoing, htype⟩
  refine wpe_mono (checkFolder_settled hgoing htype) ?_ fun _ _ h => h
  rintro - tr ⟨hgoing, htype, hfolder⟩
  have h : Checked lib ctx userId session tr := ⟨hgoing, hsize, htype, hfolder⟩
  refine wpe_read hgoing rfl rfl fun row hrow hgoing => ?_
  have h := checked_append h hgoing
  have hfound : row = lib.files.find? (·.hasKey userId session.objectKey) := hrow
  rcases row with _ | existing
  · exact insertUpload_settled h hfound.symm
  · refine settled_of_passed (fun ev hev => (hgoing ev hev).1) (not_rejected_of_checked h fun hroom => ?_)
    have hnone := hroom.1
    rw [← hfound] at hnone
    cases hnone

/-- **A stored file loses its object** in a finalize call exactly if its upload is rejected: the checks are made as for a
new upload, and only the lookup of the quota check, which is for a row of the caller, spares it. -/
theorem removes_stored_iff {tr : List (Event FileSig)} {r : Except UploadError String}
    (hrun : Run (completeUpload ctx userId session).run tr r) (hread : ∀ ev ∈ tr, lib.Answers ev) :
    ¬ RemovesStored lib tr ↔
      ¬ (lib.Stored session.objectKey ∧ Rejected lib ctx userId session tr ∧ ¬ Interrupted tr) := by
  have hsettled := wp_recording_run (Q := fun _ tr => Settled lib ctx userId session tr)
    (wp_mono (fun r tr hr => by rcases r with e | id <;> exact hr) completeUpload_settled) hrun hread
  exact not_congr hsettled

end Checks

/-! ## Concrete calls -/

section Concrete

def Library.answer (lib : Library) : (op : FileOp) → op.Ans
  | .statObject objectKey => lib.stats objectKey
  | .readObjectHead objectKey => lib.heads objectKey
  | .removeObject _ => ()
  | .getTierForUser userId => lib.tiers userId
  | .getFolder folderId => lib.folders.find? (·.id = folderId)
  | .findByKey userId fileKey => lib.files.find? (·.hasKey userId fileKey)
  | .lockUserForUpdate _ => ()
  | .getUserStorageUsed userId => storageUsed userId lib.files
  | .uuid4 => "file-2"
  | .utcNow => 0
  | .commit _ => ()

def libraryEnv (lib : Library) : Env FileSig Unit where
  reply _ op := .ok (lib.answer op)
  effect _ _ := ()

/-- User 7 has a file of 200 bytes, on a tier that he no longer had when he stored it. -/
def oneFile : Library where
  files := [
    { id := "file-1", userId := 7, folderId := none, fileKey := "upload/1.txt", fileName := "a.txt", fileExtension := "txt"
      fileSizeBytes := 200, mimeType := "text/plain", createdAt := 0 }]
  folders := []
  tiers _ := .free
  stats objectKey := if objectKey = "upload/1.txt" then some ⟨200, none⟩ else none
  heads _ := []

def finishedSession : UploadSession where
  uploadId := "1"
  objectKey := "upload/1.txt"
  status := "completed"
  fileName := some "a.txt"
  userId := some "7"

def finalizedAgain (sizeLimit : ℤ) : List (Event FileSig) × Except UploadError String :=
  (completeUpload ⟨fun _ => sizeLimit⟩ 7 finishedSession).run.play (libraryEnv oneFile) ()

instance decidableAnswers (lib : Library) : DecidablePred lib.Answers := fun ev => by
  obtain ⟨op, out, took, h⟩ := ev
  rcases out with e | a
  · cases op <;> exact isTrue trivial
  · cases op with
    | statObject objectKey => exact inferInstanceAs (Decidable (a = lib.stats objectKey))
    | readObjectHead objectKey => exact inferInstanceAs (Decidable (a = lib.heads objectKey))
    | getTierForUser userId => exact inferInstanceAs (Decidable (a = lib.tiers userId))
    | getFolder folderId => exact inferInstanceAs (Decidable (a = lib.folders.find? (·.id = folderId)))
    | findByKey userId fileKey => exact inferInstanceAs (Decidable (a = lib.files.find? (·.hasKey userId fileKey)))
    | getUserStorageUsed userId => exact inferInstanceAs (Decidable (a = storageUsed userId lib.files))
    | _ => exact isTrue trivial

/-- Finalized again within the limit of its tier, the file is left alone. -/
theorem removes_stored_never : ¬ RemovesStored oneFile (finalizedAgain 1000).1 := by
  refine (removes_stored_iff (run_play (libraryEnv oneFile) _ ()) (by decide +kernel)).2 fun h => ?_
  rcases h.2.1 with hsize | ⟨hmismatch, -⟩ | ⟨folderId, hfolder, -⟩ | ⟨hnone, -⟩
  · exact absurd hsize (by unfold Library.TooLarge; decide)
  · exact hmismatch.1 rfl
  · cases hfolder
  · cases hnone

/-- Finalized again after its owner's tier was cut, it loses its object. -/
theorem stored_file_removed :
    ¬ ∀ (lib : Library) (ctx : UploadContext) (userId : ℤ) (session : UploadSession) (tr : List (Event FileSig))
      (r : Except UploadError String), Run (completeUpload ctx userId session).run tr r → (∀ ev ∈ tr, lib.Answers ev) →
      ¬ RemovesStored lib tr := by
  intro h
  refine h oneFile ⟨fun _ => 100⟩ 7 finishedSession _ _ (run_play (libraryEnv oneFile) _ ()) (by decide +kernel) ?_
  exact ⟨_, .tail _ (.tail _ (.head _)), "upload/1.txt", rfl, _, .head _, rfl⟩

end Concrete

end Transform.Files
