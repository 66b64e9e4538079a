import Transform.Lib.Bytes
import Transform.Conversions.VerifyRequest
import Transform.Worker.Settlement

/-!
# Conversions.VerifyOwner — a session verified by somebody else

The endpoint compares the owner of a session with its caller after the session was verified.  By then the provider may
have completed the upload and the session may have been rewritten: `foreign_verify_iff`.
-/

namespace Transform.Conversions

open Lib Billing Worker

/-! ## The cache and the object store -/

section Store

/-- The cached sessions under their ids, the multipart uploads in progress, and the objects. -/
@[ext] structure UploadStore where
  sessions : String → Option UploadSession
  multiparts : String → String → Bool
  objects : String → Option Bytes
  keyed : ∀ uploadId session, sessions uploadId = some session → session.uploadId = uploadId

/-- What the provider makes of an object key, an upload id and a list of parts; none where it refuses them. -/
abbrev Assembly : Type := String → String → List (ℕ × String) → Option Bytes

namespace UploadStore

variable (s : UploadStore)

/-- The session is cached under its id. -/
def write (session : UploadSession) : UploadStore where
  sessions := Function.update s.sessions session.uploadId (some session)
  multiparts := s.multiparts
  objects := s.objects
  keyed uploadId found h := by
    by_cases hid : uploadId = session.uploadId
    · subst hid
      rw [Function.update_self] at h
      cases h
      rfl
    · rw [Function.update_of_ne hid] at h
      exact s.keyed uploadId found h

def assembled (objectKey multipartId : String) (bytes : Bytes) : UploadStore where
  sessions := s.sessions
  multiparts := Function.update s.multiparts objectKey (Function.update (s.multiparts objectKey) multipartId false)
  objects := Function.update s.objects objectKey (some bytes)
  keyed := s.keyed

/-- The provider completes an upload that is in progress, unless it refuses the parts. -/
def complete (assembly : Assembly) (objectKey multipartId : String) (parts : List (ℕ × String)) : Option UploadStore :=
  if s.multiparts objectKey multipartId then (assembly objectKey multipartId parts).map (s.assembled objectKey multipartId)
  else none

theorem complete_some {s s' : UploadStore} {assembly : Assembly} {objectKey multipartId : String} {parts : List (ℕ × String)}
    (h : s.complete assembly objectKey multipartId parts = some s') :
    s.multiparts objectKey multipartId = true ∧ s'.multiparts objectKey multipartId = false := by
  unfold complete at h
  split_ifs at h with hopen
  obtain ⟨bytes, -, rfl⟩ := Option.map_eq_some_iff.1 h
  refine ⟨hopen, ?_⟩
  unfold assembled
  dsimp only
  rw [Function.update_self, Function.update_self]

end UploadStore

variable {R : Type}

/-- The store answers what concerns the session; the library, the jobs and everything else are the others'. -/
def storeEnv (assembly : Assembly) (others : Env JobSig (UploadStore × R)) : Env JobSig (UploadStore × R) where
  reply w op :=
    match op with
    | .uploads (.getSession uploadId) => .ok (w.1.sessions uploadId)
    | .uploads (.setSession _) => .ok ()
    | .uploads (.completeMultipartUpload objectKey multipartId parts) =>
      if (w.1.complete assembly objectKey multipartId parts).isSome then .ok ()
      else .error ⟨.other, "storage operation failed"⟩
    | .uploads (.objectExists objectKey) => .ok (w.1.objects objectKey).isSome
    | op => others.reply w op
  effect w ev :=
    match ev.op with
    | .uploads (.getSession _) => w
    | .uploads (.setSession session) => if ev.took then (w.1.write session, w.2) else w
    | .uploads (.completeMultipartUpload objectKey multipartId parts) =>
      if ev.took then ((w.1.complete assembly objectKey multipartId parts).getD w.1, w.2) else w
    | .uploads (.objectExists _) => w
    | _ => others.effect w ev

end Store

/-! ## A caller who is not the owner -/

section Foreign

variable {R : Type} {assembly : Assembly} {others : Env JobSig (UploadStore × R)} {w : UploadStore × R}
  {ctx : ServiceContext} {req : VerifyRequest} {session : UploadSession} {owner : String}

/-- The endpoint answers not-found, and leaves the store, the library and the jobs as they were. -/
def Untouched (ctx : ServiceContext) (assembly : Assembly) (others : Env JobSig (UploadStore × R)) (w : UploadStore × R)
    (req : VerifyRequest) : Prop :=
  ∃ message, (verifyUploadSession ctx req).run.exec (storeEnv assembly others) w = (.error ⟨.http 404, message⟩, w)

/-- How the call of somebody who is not the owner ends. -/
def ForeignOutcome (session : UploadSession) (w : UploadStore × R) (e : PyError) (w' : UploadStore × R) : Prop :=
  if MultipartPending session then
    e.cls ≠ .http 404 ∨ ∃ objectKey multipartId, w.1.multiparts objectKey multipartId = true ∧
      w'.1.multiparts objectKey multipartId = false
  else if (w.1.objects session.objectKey).isSome then
    e.cls = .http 404 ∧ w' = (w.1.write { session with status := "completed" }, w.2)
  else e.cls = .http 409

theorem checkObject_foreign {held : UploadSession} {w' : UploadStore × R} {Q : UploadSession → UploadStore × R → Prop}
    {E : PyError → UploadStore × R → Prop} {uploadId : String}
    (hfound : (w'.1.objects held.objectKey).isSome = true →
      Q { held with status := "completed" } (w'.1.write { held with status := "completed" }, w'.2))
    (hmissing : (w'.1.objects held.objectKey).isSome = false → ∀ message, E ⟨.uploadVerification, message⟩ w') :
    wpe (.of (storeEnv assembly others)) (do
      if ← call (.uploads (.objectExists held.objectKey)) then
        let session := { held with status := "completed" }
        call (.uploads (.setSession session))
        return session
      else .throw ⟨.uploadVerification, s!"Upload for session {uploadId} is not complete or failed."⟩) Q E w' := by
  rw [wpe_bind]
  refine (@wpe_ask_answered _ _ (storeEnv assembly others) (.uploads (.objectExists held.objectKey)) _ _ _ _ rfl).2 ?_
  split_ifs with h
  · rw [wpe_bind]
    exact (@wpe_ask_answered _ _ (storeEnv assembly others) (.uploads (.setSession { held with status := "completed" }))
      _ _ _ _ rfl).2 (hfound h)
  · exact hmissing (by simpa using h) _

/-- **A call by somebody else** fails its comparison last. -/
theorem verify_foreign (hsession : w.1.sessions req.uploadId = some session) (howner : session.userId = some owner)
    (hforeign : owner ≠ req.userId.repr) :
    wpe (.of (storeEnv assembly others)) (verifyUploadSession ctx req) (fun _ _ => False)
      (fun e w' => ForeignOutcome session w e w') w := by
  have hread : (storeEnv assembly others).reply w (.uploads (.getSession req.uploadId)) = .ok (some session) :=
    congrArg Except.ok hsession
  unfold verifyUploadSession finalizeUpload verifyUploadCompletion
  rw [wpe_mapError, wpe_bind, wpe_bind]
  have hsame : (storeEnv assembly others).effect w
      (.done (.uploads (.getSession req.uploadId)) (.ok (some session))) = w := rfl
  refine (wpe_ask_answered hread).2 ?_
  rw [hsame]
  dsimp only
  rw [wpe_bind]
  -- whoever holds the session then, the caller is not its owner
  have hrejected : ∀ (held : UploadSession) (w' : UploadStore × R) (rest : Py UploadSession),
      held.userId = session.userId → ForeignOutcome session w ⟨.http 404, "Upload session not found"⟩ w' →
      wpe (.of (storeEnv assembly others)) (if held.userId ≠ none ∧ held.userId ≠ some req.userId.repr then
          .throw ⟨.uploadSessionNotFound, "Upload session not found"⟩ else rest) (fun _ _ => False)
        (fun e w' => ForeignOutcome session w (toHttp e) w') w' := by
    intro held w' rest hheld houtcome
    rw [if_pos]
    · exact houtcome
    · rw [hheld, howner]
      exact ⟨Option.some_ne_none _, fun h => hforeign (Option.some.inj h)⟩
  by_cases hpending : MultipartPending session
  · obtain ⟨multipartId, hid⟩ := Option.ne_none_iff_exists'.1 hpending.2
    have houtcome : ∀ e w', (e.cls ≠ .http 404 ∨ ∃ objectKey multipartId, w.1.multiparts objectKey multipartId = true ∧
        w'.1.multiparts objectKey multipartId = false) → ForeignOutcome session w e w' := fun e w' h => by
      unfold ForeignOutcome
      rw [if_pos hpending]
      exact h
    rw [completeMultipart_pending hpending.1 hid]
    split_ifs with hparts
    · exact houtcome _ _ (.inl (by decide))
    rw [wpe_bind]
    rcases hcompleted : w.1.complete assembly session.objectKey multipartId (req.parts.mergeSort fun a b => a.1 ≤ b.1) with
      _ | assembled
    · have hrefused : (storeEnv assembly others).reply w (.uploads (.completeMultipartUpload session.objectKey multipartId
          (req.parts.mergeSort fun a b => a.1 ≤ b.1))) = .error ⟨.other, "storage operation failed"⟩ :=
        if_neg (by rw [hcompleted]; exact Bool.false_ne_true)
      exact (wpe_ask_raised hrefused).2 (houtcome _ _ (.inl (by decide)))
    · have haccepted : (storeEnv assembly others).reply w (.uploads (.completeMultipartUpload session.objectKey multipartId
          (req.parts.mergeSort fun a b => a.1 ≤ b.1))) = .ok () := if_pos (by rw [hcompleted]; rfl)
      have heffect : (storeEnv assembly others).effect w (.done (.uploads (.completeMultipartUpload session.objectKey
          multipartId (req.parts.mergeSort fun a b => a.1 ≤ b.1))) (.ok ())) = (assembled, w.2) := by
        have hgot : (w.1.complete assembly session.objectKey multipartId
          (req.parts.mergeSort fun a b => a.1 ≤ b.1)).getD w.1 = assembled := by rw [hcompleted]; rfl
        exact congrArg (·, w.2) hgot
      obtain ⟨hopen, hclosed⟩ := UploadStore.complete_some hcompleted
      refine (wpe_ask_answered haccepted).2 ?_
      rw [heffect]
      refine checkObject_foreign (fun _ => hrejected _ _ _ rfl ?_) fun _ message => houtcome _ _ (.inl fun h => by cases h)
      exact houtcome _ _ (.inr ⟨_, _, hopen, hclosed⟩)
  · rw [completeMultipart_settled hpending]
    refine checkObject_foreign (fun hfound => hrejected _ _ _ rfl ?_) fun hmissing message => ?_
    · unfold ForeignOutcome
      rw [if_neg hpending, if_pos hfound]
      exact ⟨rfl, rfl⟩
    · unfold ForeignOutcome
      rw [if_neg hpending, if_neg (by rw [hmissing]; decide)]
      rfl

theorem write_same {s : UploadStore} {uploadId : String} (h : s.sessions uploadId = some session) : s.write session = s := by
  have hid : session.uploadId = uploadId := s.keyed uploadId session h
  unfold UploadStore.write
  ext1
  · dsimp only
    rw [hid, ← h, Function.update_eq_self]
  · rfl
  · rfl

/-- **The call of somebody else** leaves everything as it was, and answers not-found, exactly for a session that has no
upload left to complete, whose object is there, and that is marked completed already. -/
theorem foreign_verify_iff (hsession : w.1.sessions req.uploadId = some session) (howner : session.userId = some owner)
    (hforeign : owner ≠ req.userId.repr) :
    Untouched ctx assembly others w req ↔
      ¬ MultipartPending session ∧ (w.1.objects session.objectKey).isSome = true ∧ session.status = "completed" := by
  have hrun := (wp_of _).1 (@verify_foreign _ assembly others _ ctx _ _ _ hsession howner hforeign)
  unfold Untouched
  rcases hexec : (verifyUploadSession ctx req).run.exec (storeEnv assembly others) w with ⟨e | answered, w'⟩
  · rw [hexec] at hrun
    have houtcome : ForeignOutcome session w e w' := hrun
    unfold ForeignOutcome at houtcome
    constructor
    · rintro ⟨message, heq⟩
      cases heq
      split_ifs at houtcome with hpending hfound
      · rcases houtcome with hcls | ⟨objectKey, multipartId, hopen, hclosed⟩
        · exact absurd rfl hcls
        · rw [hopen] at hclosed
          cases hclosed
      · refine ⟨hpending, hfound, ?_⟩
        have hwritten := congrArg (fun w => w.1.sessions session.uploadId) houtcome.2
        have hid : session.uploadId = req.uploadId := w.1.keyed _ _ hsession
        dsimp only [UploadStore.write] at hwritten
        rw [Function.update_self, hid, hsession] at hwritten
        exact congrArg UploadSession.status (Option.some.inj hwritten)
      · cases houtcome
    · rintro ⟨hpending, hfound, hstatus⟩
      rw [if_neg hpending, if_pos hfound] at houtcome
      obtain ⟨hcls, rfl⟩ := houtcome
      have hmarked : { session with status := "completed" } = session := by rw [← hstatus]
      rw [hmarked, write_same hsession]
      obtain ⟨cls, message⟩ := e
      obtain rfl : cls = .http 404 := hcls
      exact ⟨message, rfl⟩
  · rw [hexec] at hrun
    exact hrun.elim

end Foreign

/-! ## Concrete calls -/

section Concrete

/-- Two users with nothing but a session of the first. -/
def storeOf (session : UploadSession) (objects : String → Option Bytes) : UploadStore :=
  UploadStore.write
    { sessions := fun _ => none
      multiparts := fun _ multipartId => session.multipartUploadId = some multipartId
      objects
      keyed := fun _ _ h => absurd h (Option.some_ne_none _).symm } session

/-- A library and jobs that answer everything and that nothing changes. -/
def quietOthers : Env JobSig (UploadStore × Unit) where
  reply _ op := .ok (answering op)
  effect w _ := w

def ownedSession (status : String) (multipartUploadId : Option String) : UploadSession where
  uploadId := "upload-1"
  objectKey := "upload/upload-1.pdf"
  status
  userId := some "7"
  uploadMode := "multipart"
  multipartUploadId

/-- User 8 verifies the session of user 7. -/
def foreignRequest : VerifyRequest where
  uploadId := "upload-1"
  userId := 8
  parts := [(1, "a")]
  jobId := none

/-- After the owner has verified it, the session is left alone. -/
theorem foreign_verify_finished : Untouched ⟨[], false, ""⟩ (fun _ _ _ => some []) quietOthers
    (storeOf (ownedSession "completed" none) fun _ => some [], ()) foreignRequest :=
  (@foreign_verify_iff _ _ _ _ _ _ (ownedSession "completed" none) _ rfl rfl (by decide)).2 ⟨by decide, rfl, rfl⟩

/-- Somebody else completes an upload. -/
theorem foreign_verify_completes :
    ¬ ∀ (ctx : ServiceContext) (assembly : Assembly) (others : Env JobSig (UploadStore × Unit)) (w : UploadStore × Unit)
      (req : VerifyRequest) (session : UploadSession) (owner : String), w.1.sessions req.uploadId = some session →
      session.userId = some owner → owner ≠ req.userId.repr → Untouched ctx assembly others w req := by
  intro h
  obtain ⟨message, hexec⟩ := h ⟨[], false, ""⟩ (fun _ _ _ => some []) quietOthers
    (storeOf (ownedSession "pending" (some "multipart-1")) fun _ => none, ()) foreignRequest
    (ownedSession "pending" (some "multipart-1")) "7" rfl rfl (by decide)
  have hopen := congrArg (fun r => r.2.1.multiparts "upload/upload-1.pdf" "multipart-1") hexec
  cases hopen

end Concrete

end Transform.Conversions
