import Transform.Lib.Interleave
import Transform.Files.Upload

/-!
# Files.UploadSystem — concurrent finalize calls of one user

Any number of finalize calls, of the same or of different sessions, interleaved call by call, each in a database
session that may end at any point.  `quota_kept`: the usage never passes the quota.  `one_row_iff`: a key has one row
exactly as long as no call inserts a row of a key that another call committed after its own lookup.
-/

namespace Transform.Files

open Lib Conversions Billing

/-! ## What a call has seen -/

section Notes

/-- What a finalize call has learnt: that its key has no row, that it holds the row lock, and the usage it then
read. -/
structure UploadNotes where
  looked : Bool := false
  locked : Bool := false
  used : Option ℤ := none

def UploadNotes.step (notes : UploadNotes) : Event FileSig → UploadNotes
  | ⟨.findByKey _ _, .ok none, _, _⟩ => { notes with looked := true }
  | ⟨.findByKey _ _, _, _, _⟩ => { notes with looked := false }
  | ⟨.lockUserForUpdate _, .ok _, _, _⟩ => { notes with locked := true }
  | ⟨.getUserStorageUsed _, .ok n, _, _⟩ => if notes.locked then { notes with used := some n } else notes
  | ⟨.commit _, _, _, _⟩ => {}
  | _ => notes

/-- The row a call may insert: of its key, not found before, and within the quota over the usage it read. -/
def Insertable (userId quota : ℤ) (session : UploadSession) (notes : UploadNotes) (row : UserFile) : Prop :=
  row.hasKey userId session.objectKey ∧ notes.looked = true ∧ notes.locked = true ∧
    ∃ used, notes.used = some used ∧ used + row.fileSizeBytes ≤ max used quota

/-- Watches a finalize call of the user, whose quota is given. -/
def uploadMonitor (userId : ℤ) (tier : SubscriptionTier) (session : UploadSession) : Monitor FileSig UploadNotes where
  pre notes op := match op with
    | .findByKey u key => u = userId ∧ key = session.objectKey
    | .lockUserForUpdate u => u = userId
    | .getUserStorageUsed u => u = userId
    | .commit row => Insertable userId (TierPolicy.forTier tier).storageQuotaBytes session notes row
    | _ => True
  rely _ ev := match ev with
    | ⟨.getTierForUser _, .ok t, _, _⟩ => t = tier
    | _ => True
  step := UploadNotes.step

end Notes

/-! ## A finalize call -/

section Call

variable {ctx : UploadContext} {userId : ℤ} {tier : SubscriptionTier} {session : UploadSession} {notes : UploadNotes}

/-- The calls that do not concern the rows. -/
def Aside : FileOp → Prop
  | .statObject _ | .readObjectHead _ | .removeObject _ | .getFolder _ | .uuid4 | .utcNow => True
  | _ => False

theorem call_only {op : FileOp} (h : Aside op) : (call op).Only Aside :=
  only_tryCatch (only_ask h) fun _ => only_throw

theorem reject_only (objectKey : String) (e : UploadError) : (reject objectKey e).Only Aside :=
  only_bind (@call_only (.removeObject objectKey) trivial) fun _ => only_throw

theorem wpe_aside {α : Type} {p : FileM α} (hp : p.Only Aside) {Q : α → UploadNotes → Prop}
    {E : UploadError → UploadNotes → Prop} (hQ : ∀ a, Q a notes) (hE : ∀ e, E e notes) :
    wpe (uploadMonitor userId tier session) p Q E notes := by
  refine wpe_of_only hp (fun op h => ?_) (fun ev h => ?_) hQ hE
  · cases op <;> first | exact h.elim | trivial
  · obtain ⟨op, out, took, hk⟩ := ev
    cases op <;> first | exact h.elim | rfl

/-- A rejection raises. -/
theorem wpe_reject {objectKey : String} {e : UploadError} {Q : Unit → UploadNotes → Prop} :
    wpe (uploadMonitor userId tier session) (reject objectKey e) Q (fun _ _ => True) notes := by
  unfold reject
  rw [wpe_bind]
  exact wpe_aside (@call_only (.removeObject objectKey) trivial) (fun _ => trivial) fun _ => trivial

theorem checkFileSize_only (size : ℤ) : (checkFileSize ctx session tier size).Only Aside := by
  unfold checkFileSize
  dsimp only
  split_ifs
  · exact reject_only _ _
  · exact only_pure

theorem checkSignature_only : (checkSignature session).Only Aside := by
  unfold checkSignature
  refine only_bind (only_tryCatch (call_only trivial) fun _ => only_pure) fun head => ?_
  split_ifs
  · exact reject_only _ _
  · exact only_pure

theorem checkFolder_only : (checkFolder userId session).Only Aside := by
  unfold checkFolder
  split
  · exact only_pure
  · refine only_tryCatch (only_bind ?_ fun _ => only_pure) fun e => ?_
    · unfold getFolder
      refine only_bind (call_only trivial) fun folder => ?_
      rcases folder with _ | folder
      · exact only_throw
      · dsimp only
        split_ifs
        · exact only_pure
        · exact only_throw
    · cases e with
      | folderNotFound message => exact reject_only _ _
      | _ => exact only_throw

theorem checkQuota_spec {size : ℤ} (hlooked : notes.looked = true) :
    wpe (uploadMonitor userId tier session) (checkQuota userId session tier size)
      (fun _ notes' => notes'.looked = true ∧ notes'.locked = true ∧ ∃ used, notes'.used = some used ∧
        used + size ≤ max used (TierPolicy.forTier tier).storageQuotaBytes)
      (fun _ _ => True) notes := by
  unfold checkQuota
  simp only [wpe_bind, call, wpe_mapError]
  refine wpe_ask.2 ⟨rfl, fun _ _ => ?_, fun _ _ _ _ => trivial⟩
  refine wpe_ask.2 ⟨rfl, fun used _ => ?_, fun _ _ _ _ => trivial⟩
  refine wpe_ofExcept (fun decision hd => ?_) fun _ _ => trivial
  obtain ⟨-, rfl⟩ := evaluateStorageQuota_ok hd
  split_ifs with hallowed
  · exact ⟨hlooked, rfl, used, rfl, add_le_of_allowed hallowed⟩
  · exact wpe_reject

theorem saveUpload_spec {size : ℤ} {contentType : Option String} (hlooked : notes.looked = true)
    (hlocked : notes.locked = true) {used : ℤ} (hused : notes.used = some used)
    (hroom : used + size ≤ max used (TierPolicy.forTier tier).storageQuotaBytes) :
    wpe (uploadMonitor userId tier session) (saveUpload userId session size contentType) (fun _ _ => True)
      (fun _ _ => True) notes := by
  unfold saveUpload save
  simp only [wpe_bind, call, wpe_mapError]
  refine wpe_ask.2 ⟨trivial, fun id _ => ?_, fun _ _ _ _ => trivial⟩
  refine wpe_ask.2 ⟨trivial, fun now _ => ?_, fun _ _ _ _ => trivial⟩
  refine wpe_ask.2 ⟨⟨⟨rfl, rfl⟩, hlooked, hlocked, used, hused, hroom⟩, fun _ _ => trivial, fun _ _ _ _ => trivial⟩

/-- **A finalize call** inserts at most a row of its key, after a lookup that found none, and within the quota over the
usage it read under the lock. -/
theorem completeUpload_spec :
    wpe (uploadMonitor userId tier session) (completeUpload ctx userId session) (fun _ _ => True) (fun _ _ => True)
      notes := by
  unfold completeUpload
  simp only [wpe_bind]
  refine wpe_aside (@call_only (.statObject session.objectKey) trivial) (fun stats => ?_) fun _ => trivial
  rw [call, wpe_mapError]
  refine wpe_ask.2 ⟨trivial, fun t ht => ?_, fun _ _ _ _ => trivial⟩
  obtain rfl : t = tier := ht
  refine wpe_aside (checkFileSize_only _) (fun _ => ?_) fun _ => trivial
  refine wpe_aside checkSignature_only (fun _ => ?_) fun _ => trivial
  refine wpe_aside checkFolder_only (fun _ => ?_) fun _ => trivial
  rw [call, wpe_mapError]
  refine wpe_ask.2 ⟨⟨rfl, rfl⟩, fun row _ => ?_, fun _ _ _ _ => trivial⟩
  rcases row with _ | existing
  · unfold insertUpload
    rw [wpe_bind]
    refine wpe_mono (checkQuota_spec rfl) (fun _ notes' h => ?_) fun _ _ _ => trivial
    obtain ⟨hlooked, hlocked, used, hused', hroom⟩ := h
    exact saveUpload_spec hlooked hlocked hused' hroom
  · trivial

end Call

/-! ## The system -/

section System

/-- A finalize call, or the end of the database session of one. -/
inductive UploadTag
  | verify (session : UploadSession)
  | close (j : ℕ)

/-- The files, the holder of the row lock of the user, and the calls whose session has ended.  Beside them what each
call has learnt, and the keys committed since it looked for its own. -/
structure UploadWorld where
  files : List UserFile
  holder : Option ℕ := none
  closed : ℕ → Bool := fun _ => false
  notes : ℕ → UploadNotes := fun _ => {}
  since : ℕ → List String := fun _ => []

namespace UploadWorld

variable (w : UploadWorld)

/-- A row that took effect. -/
def inserted : Event FileSig → Option UserFile
  | ⟨.commit row, _, true, _⟩ => some row
  | _ => none

/-- A finalize call begins, in a session of its own. -/
def opened (i : ℕ) : UploadWorld :=
  { w with
    closed := Function.update w.closed i false
    notes := Function.update w.notes i {}
    since := Function.update w.since i [] }

/-- The session of call `j` ends: its lock is released, and nothing it asks takes effect any more. -/
def ended (j : ℕ) : UploadWorld :=
  { w with
    holder := if w.holder = some j then none else w.holder
    closed := Function.update w.closed j true }

/-- The outcomes the tables allow: reads see what is committed, and the row lock goes to one call at a time. -/
def Allowed (tier : SubscriptionTier) (i : ℕ) : Event FileSig → Prop
  | ⟨.getTierForUser _, .ok t, _, _⟩ => t = tier
  | ⟨.findByKey userId key, .ok none, _, _⟩ => w.closed i = false ∧ ∀ file ∈ w.files, ¬ file.hasKey userId key
  | ⟨.findByKey userId key, .ok (some file), _, _⟩ => w.closed i = false ∧ file ∈ w.files ∧ file.hasKey userId key
  | ⟨.lockUserForUpdate _, _, true, _⟩ => w.closed i = false ∧ (w.holder = none ∨ w.holder = some i)
  | ⟨.getUserStorageUsed userId, .ok n, _, _⟩ => w.closed i = false ∧ n = storageUsed userId w.files
  | ⟨.commit _, _, true, _⟩ => w.closed i = false
  | _ => True

/-- The keys committed since the call last looked for its own. -/
def sinceLookup (i : ℕ) : Event FileSig → ℕ → List String
  | ⟨.findByKey _ _, _, _, _⟩ => Function.update w.since i []
  | ⟨.commit row, _, true, _⟩ => fun j => row.fileKey :: w.since j
  | _ => w.since

def holderAfter (i : ℕ) : Event FileSig → Option ℕ
  | ⟨.lockUserForUpdate _, _, true, _⟩ => some i
  | ⟨.commit _, _, true, _⟩ => if w.holder = some i then none else w.holder
  | _ => w.holder

/-- What an exchange does. -/
def apply (i : ℕ) (ev : Event FileSig) : UploadWorld :=
  { w with
    files := (inserted ev).toList ++ w.files
    holder := w.holderAfter i ev
    notes := Function.update w.notes i ((w.notes i).step ev)
    since := w.sinceLookup i ev }

end UploadWorld

/-- Finalize calls of one user. -/
def uploadSystem (ctx : UploadContext) (userId : ℤ) (tier : SubscriptionTier) : Sys FileSig where
  World := UploadWorld
  Tag := UploadTag
  spawn w i tag p w' := match tag with
    | .verify session => w.holder ≠ some i ∧ p = thread (completeUpload ctx userId session) ∧ w' = w.opened i
    | .close j => p = .ret () ∧ w' = w.ended j
  Allowed w i _ ev := w.Allowed tier i ev
  apply w i _ ev := w.apply i ev

def OneRowPerKey (userId : ℤ) (files : List UserFile) : Prop :=
  ((files.filter (·.userId = userId)).map (·.fileKey)).Nodup

/-- The call does not insert a row of a key that was committed after its own lookup. -/
def NotOvertaken (ctx : UploadContext) (userId : ℤ) (tier : SubscriptionTier) (c : (uploadSystem ctx userId tier).Config)
    (i : ℕ) (_ : UploadTag) (ev : Event FileSig) : Prop :=
  ∀ row, UploadWorld.inserted ev = some row → row.fileKey ∉ UploadWorld.since c.world i

end System

/-! ## What an exchange keeps -/

section Exchanges

variable {ctx : UploadContext} {userId : ℤ} {tier : SubscriptionTier} {session : UploadSession} {w : UploadWorld}
  {i j : ℕ} {before : ℤ}

def WithinQuota (userId : ℤ) (tier : SubscriptionTier) (before : ℤ) (w : UploadWorld) : Prop :=
  storageUsed userId w.files ≤ max before (TierPolicy.forTier tier).storageQuotaBytes

/-- What a call's notes say of the shared state, as long as its session lasts. -/
structure Informed (userId : ℤ) (session : UploadSession) (w : UploadWorld) (i : ℕ) : Prop where
  holds : (w.notes i).locked = true → w.closed i = false → w.holder = some i
  locked : (w.notes i).used ≠ none → (w.notes i).locked = true
  usage : ∀ n, (w.notes i).used = some n → w.closed i = false → n = storageUsed userId w.files
  looked : (w.notes i).looked = true → ∀ file ∈ w.files, file.hasKey userId session.objectKey →
    session.objectKey ∈ w.since i
  since : ∀ key ∈ w.since i, ∃ file ∈ w.files, file.hasKey userId key

/-- A running call: its program keeps to its monitor, and its notes are true. -/
def Filing (userId : ℤ) (tier : SubscriptionTier) (w : UploadWorld) (i : ℕ) : UploadTag → Proc FileSig Unit → Prop
  | .verify session, p =>
    wp (uploadMonitor userId tier session) p (fun _ _ => True) (w.notes i) ∧ Informed userId session w i
  | .close _, p => p = .ret ()

theorem insertable_of_inserted {ev : Event FileSig} {row : UserFile}
    (hpre : (uploadMonitor userId tier session).pre (w.notes i) ev.op) (hall : w.Allowed tier i ev)
    (hrow : UploadWorld.inserted ev = some row) :
    w.closed i = false ∧ Insertable userId (TierPolicy.forTier tier).storageQuotaBytes session (w.notes i) row := by
  obtain ⟨op, out, took, h⟩ := ev
  cases op with
  | commit row' =>
    cases took with
    | false => cases hrow
    | true =>
      cases hrow
      rcases out with e | a
      · exact ⟨hall, hpre⟩
      · exact ⟨hall, hpre⟩
  | _ => cases hrow

theorem holder_of_inserted {ev : Event FileSig} {row : UserFile}
    (hpre : (uploadMonitor userId tier session).pre (w.notes i) ev.op) (hI : Informed userId session w i)
    (hall : w.Allowed tier i ev) (hrow : UploadWorld.inserted ev = some row) : w.holder = some i := by
  obtain ⟨hopen, -, -, hlocked, -⟩ := insertable_of_inserted hpre hall hrow
  exact hI.holds hlocked hopen

theorem files_apply (ev : Event FileSig) : (w.apply i ev).files = (UploadWorld.inserted ev).toList ++ w.files := rfl

theorem files_apply_none {ev : Event FileSig} (h : UploadWorld.inserted ev = none) : (w.apply i ev).files = w.files := by
  rw [files_apply, h]
  rfl

theorem files_apply_some {ev : Event FileSig} {row : UserFile} (h : UploadWorld.inserted ev = some row) :
    (w.apply i ev).files = row :: w.files := by
  rw [files_apply, h]
  rfl

theorem since_inserted {ev : Event FileSig} {row : UserFile} (h : UploadWorld.inserted ev = some row) (j : ℕ) :
    (w.apply i ev).since j = row.fileKey :: w.since j := by
  obtain ⟨op, out, took, hk⟩ := ev
  cases op with
  | commit row' =>
    cases took with
    | false => cases h
    | true =>
      cases h
      rfl
  | _ => cases h

/-- The keys since a call's lookup stand in the tables, whoever commits. -/
theorem since_kept {ev : Event FileSig} (hpre : (uploadMonitor userId tier session).pre (w.notes i) ev.op)
    (hall : w.Allowed tier i ev) (hsince : ∀ key ∈ w.since j, ∃ file ∈ w.files, file.hasKey userId key) :
    ∀ key ∈ (w.apply i ev).since j, ∃ file ∈ (w.apply i ev).files, file.hasKey userId key := by
  intro key hkey
  rcases hrow : UploadWorld.inserted ev with _ | row
  · rw [files_apply_none hrow]
    refine hsince key ?_
    obtain ⟨op, out, took, hk⟩ := ev
    cases op with
    | findByKey u k =>
      have hkey' : key ∈ Function.update w.since i [] j := hkey
      by_cases hji : j = i
      · subst hji
        rw [Function.update_self] at hkey'
        cases hkey'
      · rw [Function.update_of_ne hji] at hkey'
        exact hkey'
    | commit row =>
      cases took with
      | false => exact hkey
      | true => cases hrow
    | _ => exact hkey
  · rw [files_apply_some hrow]
    rw [since_inserted hrow] at hkey
    rcases List.mem_cons.1 hkey with rfl | hkey
    · exact ⟨row, List.mem_cons_self .., (insertable_of_inserted hpre hall hrow).2.1.1, rfl⟩
    · obtain ⟨file, hfile, hhas⟩ := hsince key hkey
      exact ⟨file, List.mem_cons_of_mem _ hfile, hhas⟩

/-- An exchange leaves what the other calls know. -/
theorem informed_other {session' : UploadSession} {ev : Event FileSig}
    (hpre : (uploadMonitor userId tier session).pre (w.notes i) ev.op) (hI : Informed userId session w i)
    (hall : w.Allowed tier i ev) (hji : j ≠ i) (hJ : Informed userId session' w j) :
    Informed userId session' (w.apply i ev) j := by
  have hnotes : (w.apply i ev).notes j = w.notes j := Function.update_of_ne hji ..
  have hnone : (w.notes j).locked = true → w.closed j = false → w.holder ≠ none ∧ w.holder ≠ some i := by
    intro hlocked hopen
    rw [hJ.holds hlocked hopen]
    exact ⟨Option.some_ne_none _, fun h => hji (Option.some.inj h)⟩
  refine ⟨fun hlocked hopen => ?_, fun hused => ?_, fun n hn hopen => ?_, fun hlooked file hfile hhas => ?_,
    since_kept hpre hall hJ.since⟩
  · rw [hnotes] at hlocked
    obtain ⟨hne, hni⟩ := hnone hlocked hopen
    have hsame : w.holderAfter i ev = w.holder := by
      obtain ⟨op, out, took, hk⟩ := ev
      cases op with
      | lockUserForUpdate u =>
        cases took with
        | false => rfl
        | true =>
          have hfree : w.closed i = false ∧ (w.holder = none ∨ w.holder = some i) := by
            rcases out with e | a <;> exact hall
          exact absurd hfree.2 (by simp [hne, hni])
      | commit row =>
        cases took with
        | false => rfl
        | true => exact if_neg hni
      | _ => rfl
    exact hsame.trans (hJ.holds hlocked hopen)
  · rw [hnotes] at hused ⊢
    exact hJ.locked hused
  · rw [hnotes] at hn
    rcases hrow : UploadWorld.inserted ev with _ | row
    · rw [files_apply_none hrow]
      exact hJ.usage n hn hopen
    · have hlocked := hJ.locked (by rw [hn]; exact Option.some_ne_none _)
      exact absurd (holder_of_inserted hpre hI hall hrow) (hnone hlocked hopen).2
  · rw [hnotes] at hlooked
    rcases hrow : UploadWorld.inserted ev with _ | row
    · rw [files_apply_none hrow] at hfile
      have hmem := hJ.looked hlooked file hfile hhas
      obtain ⟨op, out, took, hk⟩ := ev
      cases op with
      | findByKey u k =>
        show session'.objectKey ∈ Function.update w.since i [] j
        rw [Function.update_of_ne hji]
        exact hmem
      | commit row =>
        cases took with
        | false => exact hmem
        | true => cases hrow
      | _ => exact hmem
    · rw [files_apply_some hrow] at hfile
      rw [since_inserted hrow]
      rcases List.mem_cons.1 hfile with rfl | hfile
      · exact List.mem_cons.2 (.inl hhas.2.symm)
      · exact List.mem_cons_of_mem _ (hJ.looked hlooked file hfile hhas)

theorem informed_self {ev : Event FileSig} (hpre : (uploadMonitor userId tier session).pre (w.notes i) ev.op)
    (hI : Informed userId session w i) (hall : w.Allowed tier i ev) : Informed userId session (w.apply i ev) i := by
  have hnotes : (w.apply i ev).notes i = (w.notes i).step ev := Function.update_self ..
  have hsince := since_kept hpre hall hI.since
  obtain ⟨op, out, took, hk⟩ := ev
  cases op with
  | findByKey u key =>
    obtain ⟨rfl, rfl⟩ : u = userId ∧ key = session.objectKey := hpre
    rcases out with e | file | file
    · refine ⟨?_, ?_, ?_, ?_, hsince⟩ <;> rw [hnotes]
      · exact hI.holds
      · exact hI.locked
      · exact hI.usage
      · exact fun h => (by cases h)
    · refine ⟨?_, ?_, ?_, ?_, hsince⟩ <;> rw [hnotes]
      · exact hI.holds
      · exact hI.locked
      · exact hI.usage
      · intro _ file hfile hhas
        exact absurd hhas (hall.2 file hfile)
    · refine ⟨?_, ?_, ?_, ?_, hsince⟩ <;> rw [hnotes]
      · exact hI.holds
      · exact hI.locked
      · exact hI.usage
      · exact fun h => (by cases h)
  | lockUserForUpdate u =>
    rcases out with e | a
    · refine ⟨?_, ?_, ?_, ?_, hsince⟩ <;> rw [hnotes]
      · intro hlocked hopen
        cases took with
        | true => rfl
        | false => exact hI.holds hlocked hopen
      · exact hI.locked
      · exact hI.usage
      · exact hI.looked
    · obtain rfl : took = true := hk a rfl
      refine ⟨?_, ?_, ?_, ?_, hsince⟩ <;> rw [hnotes]
      · exact fun _ _ => rfl
      · exact fun _ => rfl
      · exact hI.usage
      · exact hI.looked
  | getUserStorageUsed u =>
    obtain rfl : u = userId := hpre
    rcases out with e | n
    · refine ⟨?_, ?_, ?_, ?_, hsince⟩ <;> rw [hnotes]
      · exact hI.holds
      · exact hI.locked
      · exact hI.usage
      · exact hI.looked
    · by_cases hlocked : (w.notes i).locked = true
      · have hstep : (w.notes i).step ⟨.getUserStorageUsed u, .ok n, took, hk⟩ = { w.notes i with used := some n } :=
          if_pos hlocked
        refine ⟨?_, ?_, ?_, ?_, hsince⟩ <;> rw [hnotes, hstep]
        · exact hI.holds
        · exact fun _ => hlocked
        · intro n' hn' _
          cases hn'
          exact hall.2
        · exact hI.looked
      · have hstep : (w.notes i).step ⟨.getUserStorageUsed u, .ok n, took, hk⟩ = w.notes i := if_neg hlocked
        refine ⟨?_, ?_, ?_, ?_, hsince⟩ <;> rw [hnotes, hstep]
        · exact hI.holds
        · exact hI.locked
        · exact hI.usage
        · exact hI.looked
  | commit row =>
    refine ⟨?_, ?_, ?_, ?_, hsince⟩ <;> rw [hnotes]
    · exact fun h => (by cases h)
    · exact fun h => absurd rfl h
    · exact fun n h => (by cases h)
    · exact fun h => (by cases h)
  | _ =>
    refine ⟨?_, ?_, ?_, ?_, hsince⟩ <;> rw [hnotes]
    · exact hI.holds
    · exact hI.locked
    · exact hI.usage
    · exact hI.looked

/-- An exchange keeps the quota: the usage a commit was checked against is the usage that stands. -/
theorem quota_apply {ev : Event FileSig} (hpre : (uploadMonitor userId tier session).pre (w.notes i) ev.op)
    (hI : Informed userId session w i) (hall : w.Allowed tier i ev) (hquota : WithinQuota userId tier before w) :
    WithinQuota userId tier before (w.apply i ev) := by
  unfold WithinQuota at hquota ⊢
  rcases hrow : UploadWorld.inserted ev with _ | row
  · rw [files_apply_none hrow]
    exact hquota
  · obtain ⟨hopen, ⟨huser, -⟩, -, -, used, hused, hroom⟩ := insertable_of_inserted hpre hall hrow
    have hstands := hI.usage used hused hopen
    rw [files_apply_some hrow, storageUsed_cons, if_pos huser]
    omega

end Exchanges

/-! ## Any interleaving -/

section Runs

variable {ctx : UploadContext} {userId : ℤ} {tier : SubscriptionTier} {before : ℤ}

theorem informed_opened {session : UploadSession} {w : UploadWorld} {i : ℕ} : Informed userId session (w.opened i) i := by
  have hnotes : (w.opened i).notes i = {} := Function.update_self ..
  have hsince : (w.opened i).since i = [] := Function.update_self ..
  refine ⟨?_, ?_, ?_, ?_, ?_⟩
  · rw [hnotes]
    exact fun h => (by cases h)
  · rw [hnotes]
    exact fun h => absurd rfl h
  · rw [hnotes]
    exact fun n h => (by cases h)
  · rw [hnotes]
    exact fun h => (by cases h)
  · rw [hsince]
    exact fun key h => (by cases h)

theorem filing_opened {w : UploadWorld} {i j : ℕ} (hji : j ≠ i) {tag : UploadTag} {p : Proc FileSig Unit}
    (h : Filing userId tier w j tag p) : Filing userId tier (w.opened i) j tag p := by
  cases tag with
  | close k => exact h
  | verify session =>
    obtain ⟨hprogram, hJ⟩ := h
    have hnotes : (w.opened i).notes j = w.notes j := Function.update_of_ne hji ..
    have hclosed : (w.opened i).closed j = w.closed j := Function.update_of_ne hji ..
    have hsince : (w.opened i).since j = w.since j := Function.update_of_ne hji ..
    refine ⟨?_, ?_, ?_, ?_, ?_, ?_⟩
    · rw [hnotes]
      exact hprogram
    · rw [hnotes, hclosed]
      exact hJ.holds
    · rw [hnotes]
      exact hJ.locked
    · rw [hnotes, hclosed]
      exact hJ.usage
    · rw [hnotes, hsince]
      exact hJ.looked
    · rw [hsince]
      exact hJ.since

theorem filing_ended {w : UploadWorld} {j k : ℕ} {tag : UploadTag} {p : Proc FileSig Unit}
    (h : Filing userId tier w j tag p) : Filing userId tier (w.ended k) j tag p := by
  cases tag with
  | close k => exact h
  | verify session =>
    obtain ⟨hprogram, hJ⟩ := h
    have hopen : (w.ended k).closed j = false → w.closed j = false ∧ j ≠ k := by
      intro hj
      have hj' : Function.update w.closed k true j = false := hj
      by_cases hjk : j = k
      · rw [hjk, Function.update_self] at hj'
        cases hj'
      · rw [Function.update_of_ne hjk] at hj'
        exact ⟨hj', hjk⟩
    refine ⟨hprogram, fun hlocked hj => ?_, hJ.locked, fun n hn hj => hJ.usage n hn (hopen hj).1, hJ.looked, hJ.since⟩
    have hholder := hJ.holds hlocked (hopen hj).1
    show (if w.holder = some k then none else w.holder) = some j
    rw [if_neg fun hk => (hopen hj).2 (Option.some.inj (hholder.symm.trans hk)), hholder]

theorem preserved_upload : (uploadSystem ctx userId tier).Preserved (WithinQuota userId tier before)
    (Filing userId tier) (fun _ _ _ _ => True) where
  start_world := by
    rintro w w' i tag p hI hspawn
    cases tag with
    | verify session =>
      obtain ⟨-, -, rfl⟩ := hspawn
      exact hI
    | close j =>
      obtain ⟨-, rfl⟩ := hspawn
      exact hI
  start_thread := by
    rintro w w' i tag p - hspawn
    cases tag with
    | verify session =>
      obtain ⟨-, rfl, rfl⟩ := hspawn
      refine ⟨wp_thread (wp_mono (fun _ _ _ => trivial) completeUpload_spec), informed_opened⟩
    | close j =>
      obtain ⟨rfl, -⟩ := hspawn
      rfl
  start_other := by
    rintro w w' i tag p - hspawn j tag' q hji hT
    cases tag with
    | verify session =>
      obtain ⟨-, -, rfl⟩ := hspawn
      exact filing_opened hji hT
    | close k =>
      obtain ⟨-, rfl⟩ := hspawn
      exact filing_ended hT
  act_world := by
    rintro c i tag op k out took hok hI hT hall -
    cases tag with
    | verify session => exact quota_apply hT.1.1 hT.2 hall hI
    | close j => cases hT
  act_thread := by
    rintro c i tag op k out took hok - hT hall -
    cases tag with
    | verify session =>
      refine ⟨?_, informed_self hT.1.1 hT.2 hall⟩
      have hnotes : UploadWorld.notes ((uploadSystem ctx userId tier).apply c.world i (.verify session)
          ⟨op, out, took, hok⟩) i = (UploadWorld.notes c.world i).step ⟨op, out, took, hok⟩ := Function.update_self ..
      rw [hnotes]
      refine hT.1.2 out took hok ?_
      cases op with
      | getTierForUser u =>
        rcases out with e | t
        · exact trivial
        · exact hall
      | _ => exact trivial
    | close j => cases hT
  act_other := by
    rintro c i tag op k out took hok - hT hall - j tag' q hji - hJ
    cases tag with
    | close j => cases hT
    | verify session =>
      cases tag' with
      | close k => exact hJ
      | verify session' =>
        refine ⟨?_, informed_other hT.1.1 hT.2 hall hji hJ.2⟩
        have hnotes : UploadWorld.notes ((uploadSystem ctx userId tier).apply c.world i (.verify session)
            ⟨op, out, took, hok⟩) j = UploadWorld.notes c.world j := Function.update_of_ne hji ..
        rw [hnotes]
        exact hJ.1

theorem oneRowPerKey_cons {row : UserFile} {files : List UserFile} (huser : row.userId = userId)
    (h : OneRowPerKey userId files) :
    OneRowPerKey userId (row :: files) ↔ ∀ file ∈ files, ¬ file.hasKey userId row.fileKey := by
  unfold OneRowPerKey at h ⊢
  rw [List.filter_cons_of_pos (by simpa using huser), List.map_cons, List.nodup_cons]
  constructor
  · rintro ⟨hnot, -⟩ file hfile ⟨hu, hkey⟩
    exact hnot (List.mem_map.2 ⟨file, List.mem_filter.2 ⟨hfile, by simpa using hu⟩, hkey⟩)
  · intro hfree
    refine ⟨fun hmem => ?_, h⟩
    obtain ⟨file, hfile, hkey⟩ := List.mem_map.1 hmem
    obtain ⟨hfile, hu⟩ := List.mem_filter.1 hfile
    exact hfree file hfile ⟨by simpa using hu, hkey⟩

theorem oneRow_apply {session : UploadSession} {w : UploadWorld} {i : ℕ} {ev : Event FileSig}
    (hpre : (uploadMonitor userId tier session).pre (w.notes i) ev.op) (hI : Informed userId session w i)
    (hall : w.Allowed tier i ev) (hone : OneRowPerKey userId w.files) :
    OneRowPerKey userId (w.apply i ev).files ↔
      ∀ row, UploadWorld.inserted ev = some row → row.fileKey ∉ w.since i := by
  rcases hrow : UploadWorld.inserted ev with _ | row
  · rw [files_apply_none hrow]
    exact ⟨fun _ row h => (by cases h), fun _ => hone⟩
  · obtain ⟨-, ⟨huser, hkey⟩, hlooked, -⟩ := insertable_of_inserted hpre hall hrow
    rw [files_apply_some hrow, oneRowPerKey_cons huser hone]
    constructor
    · intro hfree row' h hmem
      cases h
      obtain ⟨file, hfile, hhas⟩ := hI.since _ hmem
      exact hfree file hfile hhas
    · intro hnot file hfile hhas
      rw [hkey] at hhas
      refine hnot row rfl ?_
      rw [hkey]
      exact hI.looked hlooked file hfile hhas

theorem oneRow_step {c c' : (uploadSystem ctx userId tier).Config} {l : (uploadSystem ctx userId tier).Label}
    (hI : (uploadSystem ctx userId tier).Inv (WithinQuota userId tier before) (Filing userId tier) c)
    (hone : OneRowPerKey userId (UploadWorld.files c.world)) (hs : (uploadSystem ctx userId tier).Step c l c') :
    OneRowPerKey userId (UploadWorld.files c'.world) ↔ ActOnly (NotOvertaken ctx userId tier) c l c' := by
  cases hs with
  | @start i tag p w hfree hspawn =>
    refine iff_of_true ?_ trivial
    cases tag with
    | verify session =>
      obtain ⟨-, -, rfl⟩ := hspawn
      exact hone
    | close j =>
      obtain ⟨-, rfl⟩ := hspawn
      exact hone
  | @act i tag op k hrun out took h hall =>
    have hT := hI.2 i tag _ hrun
    cases tag with
    | verify session => exact oneRow_apply hT.1.1 hT.2 hall hone
    | close j => cases hT
  | exit => exact iff_of_true hone trivial

/-- **Finalized uploads**: along every interleaving of finalize calls the usage stays within the quota, or where it was;
and every key keeps one row exactly if no call inserts a row of a key committed after its own lookup. -/
theorem one_row_within_quota_iff {c : (uploadSystem ctx userId tier).Config}
    {tr : List ((uploadSystem ctx userId tier).Label × (uploadSystem ctx userId tier).Config)}
    (hc : ∀ i, c.threads i = none) (hone : OneRowPerKey userId (UploadWorld.files c.world))
    (hs : (uploadSystem ctx userId tier).Steps c tr) :
    Along (fun _ _ c' => WithinQuota userId tier (storageUsed userId (UploadWorld.files c.world)) c'.world) c tr ∧
      (Along (fun _ _ c' => OneRowPerKey userId (UploadWorld.files c'.world) ∧
          WithinQuota userId tier (storageUsed userId (UploadWorld.files c.world)) c'.world) c tr ↔
        Along (ActOnly (NotOvertaken ctx userId tier)) c tr) := by
  have hstart : (uploadSystem ctx userId tier).Inv
      (WithinQuota userId tier (storageUsed userId (UploadWorld.files c.world))) (Filing userId tier) c := by
    refine ⟨le_max_left _ _, fun i tag p hi => ?_⟩
    rw [hc] at hi
    cases hi
  have htrue : ∀ c l c', (uploadSystem ctx userId tier).Step c l c' →
      ActOnly (fun (_ : (uploadSystem ctx userId tier).Config) _ _ _ => True) c l c' := by
    intro c l c' _
    cases l <;> trivial
  have hstep : ∀ c' l c'', (uploadSystem ctx userId tier).Inv
      (WithinQuota userId tier (storageUsed userId (UploadWorld.files c.world))) (Filing userId tier) c' →
      (uploadSystem ctx userId tier).Step c' l c'' → (uploadSystem ctx userId tier).Inv
        (WithinQuota userId tier (storageUsed userId (UploadWorld.files c.world))) (Filing userId tier) c'' :=
    fun c' l c'' hI hst => inv_step preserved_upload hI hst (htrue c' l c'' hst)
  refine ⟨along_of_preserved preserved_upload (fun c' l c'' hI hst _ => (hstep c' l c'' hI hst).1) hstart hs
    (along_mono htrue hs), ?_⟩
  refine along_iff (K := fun c' : (uploadSystem ctx userId tier).Config =>
      OneRowPerKey userId (UploadWorld.files c'.world) ∧
        WithinQuota userId tier (storageUsed userId (UploadWorld.files c.world)) c'.world) hstep
    (fun c' l c'' hI hK hst => ?_) hstart ⟨hone, le_max_left _ _⟩ hs
  have hquota := (hstep c' l c'' hI hst).1
  rw [← oneRow_step hI hK.1 hst]
  exact ⟨fun h => h.1, fun h => ⟨h, hquota⟩⟩

end Runs

/-! ## Concrete runs -/

section Concrete

def uploadReply (w : UploadWorld) (tier : SubscriptionTier) : (op : FileOp) → Except PyError op.Ans
  | .statObject _ => .ok (some ⟨10, none⟩)
  | .readObjectHead _ => .ok []
  | .removeObject _ => .ok ()
  | .getTierForUser _ => .ok tier
  | .getFolder _ => .ok none
  | .findByKey userId key => .ok (w.files.find? fun file => file.hasKey userId key)
  | .lockUserForUpdate _ => .ok ()
  | .getUserStorageUsed userId => .ok (storageUsed userId w.files)
  | .uuid4 => .ok "file"
  | .utcNow => .ok 0
  | .commit _ => .ok ()

instance decidableAllowed (w : UploadWorld) (tier : SubscriptionTier) (i : ℕ) (ev : Event FileSig) :
    Decidable (w.Allowed tier i ev) := by
  unfold UploadWorld.Allowed
  split <;> infer_instance

instance decidableNotOvertaken {ctx : UploadContext} {userId : ℤ} {tier : SubscriptionTier}
    (c : (uploadSystem ctx userId tier).Config) (i : ℕ) (tag : UploadTag) (ev : Event FileSig) :
    Decidable (NotOvertaken ctx userId tier c i tag ev) :=
  match h : UploadWorld.inserted ev with
  | none => isTrue fun row hrow => (by rw [h] at hrow; cases hrow)
  | some row => decidable_of_iff (row.fileKey ∉ UploadWorld.since c.world i) (by simp [NotOvertaken, h])

/-- A megabyte for each file. -/
def smallFiles : UploadContext := ⟨fun _ => 1024 * 1024⟩

def uploadDriver : (uploadSystem smallFiles 7 .free).Driver where
  reply w := uploadReply w .free
  check w i _ ev := @decide _ (decidableAllowed w .free i ev)
  sound {w i _ ev} h := @of_decide_eq_true _ (decidableAllowed w .free i ev) h

def oneUpload : UploadSession := { uploadId := "u1", objectKey := "uploads/u1" }

def verifyStarter (i : ℕ) : (uploadSystem smallFiles 7 .free).Starter i where
  start w := if w.holder = some i then none else
    some (.verify oneUpload, thread (completeUpload smallFiles 7 oneUpload), w.opened i)
  sound {w tag p w'} h := by
    split_ifs at h with hheld
    cases h
    exact ⟨hheld, rfl, rfl⟩

def noFiles : (uploadSystem smallFiles 7 .free).Config := ⟨{ files := [] }, fun _ => none⟩

theorem noFiles_oneRow : OneRowPerKey 7 (UploadWorld.files noFiles.world) := List.nodup_nil

def finalizedTwice : List ((uploadSystem smallFiles 7 .free).Label × (uploadSystem smallFiles 7 .free).Config) :=
  Sys.drive uploadDriver noFiles
    [.start 0 (verifyStarter 0), .go 0, .go 0, .go 0, .go 0, .go 0, .go 0, .go 0, .go 0, .go 0,
      .start 1 (verifyStarter 1), .go 1, .go 1, .go 1, .go 1]

theorem one_row_within_quota_iff_finalizedTwice :
    OneRowPerKey 7 (UploadWorld.files (lastConfig noFiles finalizedTwice).world) ∧
      UploadWorld.files (lastConfig noFiles finalizedTwice).world ≠ [] := by
  have hovertaken : Along (ActOnly (NotOvertaken smallFiles 7 .free)) noFiles finalizedTwice :=
    @of_decide_eq_true _ (@decidableAlong _ _ _ (@decidableActOnly _ _ _ decidableNotOvertaken) _ _)
      (by decide +kernel)
  have hall := (one_row_within_quota_iff (fun _ => rfl) noFiles_oneRow (steps_drive _ _ _)).2.2 hovertaken
  have hfiles : (UploadWorld.files (lastConfig noFiles finalizedTwice).world).length = 1 := by rfl
  refine ⟨last_of_along (K := fun c : (uploadSystem smallFiles 7 .free).Config =>
    OneRowPerKey 7 (UploadWorld.files c.world)) noFiles_oneRow (along_mono (fun _ _ _ h => h.1) hall), ?_⟩
  exact List.ne_nil_of_length_pos (by omega)

/-- The upload is finalized twice at once: both calls look for its row before either takes the lock. -/
def finalizedAtOnce : List ((uploadSystem smallFiles 7 .free).Label × (uploadSystem smallFiles 7 .free).Config) :=
  Sys.drive uploadDriver noFiles
    [.start 0 (verifyStarter 0), .start 1 (verifyStarter 1), .go 0, .go 0, .go 0, .go 0, .go 1, .go 1, .go 1, .go 1,
      .go 0, .go 0, .go 0, .go 0, .go 0, .go 1, .go 1, .go 1, .go 1, .go 1]

/-- The key of an upload finalized twice at once has two rows. -/
theorem two_rows : ¬ ∀ (ctx : UploadContext) (userId : ℤ) (tier : SubscriptionTier)
    (c : (uploadSystem ctx userId tier).Config)
    (tr : List ((uploadSystem ctx userId tier).Label × (uploadSystem ctx userId tier).Config)),
    (∀ i, c.threads i = none) → OneRowPerKey userId (UploadWorld.files c.world) →
    (uploadSystem ctx userId tier).Steps c tr →
    Along (fun _ _ c' => OneRowPerKey userId (UploadWorld.files c'.world) ∧
      WithinQuota userId tier (storageUsed userId (UploadWorld.files c.world)) c'.world) c tr := by
  intro h
  have hall := h smallFiles 7 .free noFiles finalizedAtOnce (fun _ => rfl) noFiles_oneRow (steps_drive _ _ _)
  have hlast := last_of_along (K := fun c : (uploadSystem smallFiles 7 .free).Config =>
    OneRowPerKey 7 (UploadWorld.files c.world)) noFiles_oneRow (along_mono (fun _ _ _ h => h.1) hall)
  have hkeys : ((UploadWorld.files (lastConfig noFiles finalizedAtOnce).world).filter (·.userId = 7)).map (·.fileKey) =
      ["uploads/u1", "uploads/u1"] := by rfl
  unfold OneRowPerKey at hlast
  rw [hkeys] at hlast
  simp at hlast

end Concrete

end Transform.Files
