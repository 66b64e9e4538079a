import Transform.Conversions.VerifyRequest
import Transform.Worker.Settlement

/-!
# Conversions.VerifyRetries — the same session verified again

`verify_upload_completion` has the provider complete a multipart upload, clears the upload's id on the session that it
holds, and writes the session back after the object was looked for.  A call that fails in between leaves the id in the
cache, and a retry completes the upload again: `completed_once_iff`.
-/

namespace Transform.Conversions

open Lib Billing Worker

/-! ## One call -/

section Call

def CacheAnswers (session : UploadSession) : Event JobSig → Prop
  | ⟨.uploads (.getSession _), .ok found, _, _⟩ => found = some session ∨ found = none
  | _ => True

def ReadsSession (tr : List (Event JobSig)) : Prop :=
  ∃ uploadId session, .done (.uploads (.getSession uploadId)) (.ok (some session)) ∈ tr

def AsksComplete (tr : List (Event JobSig)) : Prop :=
  ∃ ev ∈ tr, ∃ objectKey multipartId parts, ev.op = .uploads (.completeMultipartUpload objectKey multipartId parts)

/-- The provider completed the upload, and said so. -/
def Completed (tr : List (Event JobSig)) : Prop :=
  ∃ objectKey multipartId parts, .done (.uploads (.completeMultipartUpload objectKey multipartId parts)) (.ok ()) ∈ tr

/-- What an exchange leaves in the cache. -/
def cacheStep (session : UploadSession) : Event JobSig → UploadSession
  | ⟨.uploads (.setSession written), _, true, _⟩ => written
  | _ => session

/-- The session in the cache after a call. -/
def cached (session : UploadSession) (tr : List (Event JobSig)) : UploadSession := tr.foldl cacheStep session

/-- A write of the session took effect. -/
def WroteSession (tr : List (Event JobSig)) : Prop :=
  ∃ ev ∈ tr, ev.took = true ∧ ∃ session, ev.op = .uploads (.setSession session)

structure Verified (session : UploadSession) (parts : List (ℕ × String)) (tr : List (Event JobSig)) : Prop where
  asks_iff : AsksComplete tr ↔ MultipartPending session ∧ parts ≠ [] ∧ ReadsSession tr
  cached_eq : ¬ WroteSession tr → cached session tr = session
  settled : WroteSession tr → ¬ MultipartPending (cached session tr)
  asks_of_wrote : WroteSession tr → MultipartPending session → AsksComplete tr

variable {session : UploadSession} {parts : List (ℕ × String)} {uploadId : String} {tr : List (Event JobSig)}
  {ev : Event JobSig}

theorem asksComplete_append : AsksComplete (tr ++ [ev]) ↔
    AsksComplete tr ∨ ∃ objectKey multipartId parts, ev.op = .uploads (.completeMultipartUpload objectKey multipartId parts) := by
  unfold AsksComplete
  simp only [List.mem_append, List.mem_singleton, or_and_right, exists_or, exists_eq_left]

theorem wroteSession_append : WroteSession (tr ++ [ev]) ↔
    WroteSession tr ∨ ev.took = true ∧ ∃ session, ev.op = .uploads (.setSession session) := by
  unfold WroteSession
  simp only [List.mem_append, List.mem_singleton, or_and_right, exists_or, exists_eq_left]

theorem readsSession_append (h : ReadsSession tr) : ReadsSession (tr ++ [ev]) := by
  obtain ⟨uploadId, session, hmem⟩ := h
  exact ⟨uploadId, session, List.mem_append_left _ hmem⟩

theorem cached_append : cached session (tr ++ [ev]) = cacheStep (cached session tr) ev := by
  unfold cached
  rw [List.foldl_append]
  rfl

/-- What holds of a call until it writes the session. -/
structure Unwritten (session : UploadSession) (parts : List (ℕ × String)) (tr : List (Event JobSig)) : Prop where
  asks_iff : AsksComplete tr ↔ MultipartPending session ∧ parts ≠ [] ∧ ReadsSession tr
  unwritten : ¬ WroteSession tr
  cached_eq : cached session tr = session

theorem verified_of_unwritten (h : Unwritten session parts tr) : Verified session parts tr where
  asks_iff := h.asks_iff
  cached_eq _ := h.cached_eq
  settled hw := absurd hw h.unwritten
  asks_of_wrote hw := absurd hw h.unwritten

/-- An exchange that neither completes nor writes. -/
theorem unwritten_append (h : Unwritten session parts tr) (hread : ReadsSession tr)
    (hcomplete : ∀ objectKey multipartId parts, ev.op ≠ .uploads (.completeMultipartUpload objectKey multipartId parts))
    (hwrite : ∀ session, ev.op ≠ .uploads (.setSession session)) : Unwritten session parts (tr ++ [ev]) where
  asks_iff := by
    rw [asksComplete_append, h.asks_iff, or_iff_left fun ⟨_, _, _, hop⟩ => hcomplete _ _ _ hop]
    exact and_congr_right fun _ => and_congr_right fun _ => iff_of_true hread (readsSession_append hread)
  unwritten := by
    rw [wroteSession_append]
    exact fun hw => hw.elim h.unwritten fun ⟨_, _, hop⟩ => hwrite _ hop
  cached_eq := by
    rw [cached_append, h.cached_eq]
    obtain ⟨op, out, took, hk⟩ := ev
    unfold cacheStep
    split
    · rename_i heq
      exact absurd (congrArg Event.op heq) (hwrite _)
    · rfl

theorem verified_write {written : UploadSession} (h : Unwritten session parts tr) (hread : ReadsSession tr)
    (hasks : MultipartPending session → AsksComplete tr) (hsettled : ¬ MultipartPending written)
    (hop : ev.op = .uploads (.setSession written)) : Verified session parts (tr ++ [ev]) := by
  have hiff : AsksComplete (tr ++ [ev]) ↔ AsksComplete tr := by
    rw [asksComplete_append, or_iff_left]
    rintro ⟨_, _, _, hop'⟩
    rw [hop] at hop'
    cases hop'
  obtain ⟨op, out, took, hk⟩ := ev
  obtain rfl : op = .uploads (.setSession written) := hop
  have hcached : cached session (tr ++ [⟨.uploads (.setSession written), out, took, hk⟩]) =
      if took then written else session := by
    rw [cached_append, h.cached_eq]
    rcases took with _ | _ <;> rfl
  refine ⟨?_, fun hw => ?_, fun hw => ?_, fun _ hp => hiff.2 (hasks hp)⟩
  · rw [hiff, h.asks_iff]
    exact and_congr_right fun _ => and_congr_right fun _ => iff_of_true hread (readsSession_append hread)
  · rw [hcached]
    refine if_neg fun htook => hw ?_
    exact wroteSession_append.2 (.inr ⟨htook, written, rfl⟩)
  · have htook : took = true := (wroteSession_append.1 hw).elim (fun h' => absurd h' h.unwritten) fun h' => h'.1
    rw [hcached, if_pos htook]
    exact hsettled

theorem checkObject_verified {held : UploadSession} (h : Unwritten session parts tr) (hread : ReadsSession tr)
    (hasks : MultipartPending session → AsksComplete tr) (hsettled : ¬ MultipartPending held) :
    wpe (.recording (CacheAnswers session)) (do
      if ← call (.uploads (.objectExists held.objectKey)) then
        let session := { held with status := "completed" }
        call (.uploads (.setSession session))
        return session
      else .throw ⟨.uploadVerification, s!"Upload for session {uploadId} is not complete or failed."⟩)
      (fun _ tr => Verified session parts tr) (fun _ tr => Verified session parts tr) tr := by
  have hexists : ∀ ev : Event JobSig, ev.op = .uploads (.objectExists held.objectKey) →
      Unwritten session parts (tr ++ [ev]) := fun ev hop =>
    unwritten_append h hread (fun _ _ _ h' => by rw [hop] at h'; cases h') fun _ h' => by rw [hop] at h'; cases h'
  have hasks' : ∀ ev : Event JobSig, MultipartPending session → AsksComplete (tr ++ [ev]) := fun ev hp =>
    asksComplete_append.2 (.inl (hasks hp))
  have hmarked : ¬ MultipartPending { held with status := "completed" } := hsettled
  rw [wpe_bind]
  refine wpe_ask.2 ⟨trivial, fun found _ => ?_, fun _ _ _ _ => verified_of_unwritten (hexists _ rfl)⟩
  split_ifs
  · rw [wpe_bind]
    exact wpe_ask.2 ⟨trivial,
      fun _ _ => verified_write (hexists _ rfl) (readsSession_append hread) (hasks' _) hmarked rfl,
      fun _ _ _ _ => verified_write (hexists _ rfl) (readsSession_append hread) (hasks' _) hmarked rfl⟩
  · exact verified_of_unwritten (hexists _ rfl)

/-- **One call**: the upload is completed if it is still pending and the call has parts, and only a call that has done so
writes the session, without the upload. -/
theorem verifyUploadCompletion_verified :
    wpe (.recording (CacheAnswers session)) (verifyUploadCompletion uploadId parts)
      (fun _ tr => Verified session parts tr) (fun _ tr => Verified session parts tr) [] := by
  have hstart : ∀ ev : Event JobSig, ev.op = .uploads (.getSession uploadId) →
      (¬ (MultipartPending session ∧ parts ≠ [] ∧ ReadsSession [ev])) → Unwritten session parts [ev] := by
    rintro ⟨op, out, took, hk⟩ rfl hnot
    refine ⟨iff_of_false ?_ hnot, ?_, rfl⟩
    · rintro ⟨ev, hev, _, _, _, hop⟩
      rw [List.mem_singleton.1 hev] at hop
      cases hop
    · rintro ⟨ev, hev, _, _, hop⟩
      rw [List.mem_singleton.1 hev] at hop
      cases hop
  unfold verifyUploadCompletion
  rw [wpe_bind]
  refine wpe_ask.2 ⟨trivial, fun found hfound => ?_, fun e took hk _ => ?_⟩
  · rcases found with _ | found
    · refine verified_of_unwritten (hstart _ rfl fun h => ?_)
      obtain ⟨-, -, id, s, hmem⟩ := h
      cases List.mem_singleton.1 hmem
    obtain rfl : found = session := hfound.elim Option.some.inj fun h => by cases h
    have hread : ReadsSession [.done (.uploads (.getSession uploadId)) (.ok (some found))] :=
      ⟨uploadId, found, List.mem_singleton.2 rfl⟩
    dsimp only
    rw [wpe_bind]
    by_cases hpending : MultipartPending found
    · obtain ⟨multipartId, hid⟩ := Option.ne_none_iff_exists'.1 hpending.2
      rw [completeMultipart_pending hpending.1 hid]
      split_ifs with hparts
      · exact verified_of_unwritten (hstart _ rfl fun h => h.2.1 hparts)
      rw [wpe_bind]
      have hcompleted : ∀ ev : Event JobSig,
          ev.op = .uploads (.completeMultipartUpload found.objectKey multipartId (parts.mergeSort fun a b => a.1 ≤ b.1)) →
          Unwritten found parts ([.done (.uploads (.getSession uploadId)) (.ok (some found))] ++ [ev]) := by
        rintro ⟨op, out, took, hk⟩ rfl
        refine ⟨iff_of_true (asksComplete_append.2 (.inr ⟨_, _, _, rfl⟩)) ⟨hpending, hparts, readsSession_append hread⟩,
          ?_, rfl⟩
        rw [wroteSession_append]
        rintro (⟨ev, hev, _, _, hop⟩ | ⟨_, _, hop⟩)
        · rw [List.mem_singleton.1 hev] at hop
          cases hop
        · cases hop
      refine wpe_ask.2 ⟨trivial, fun _ _ => ?_, fun _ _ _ _ => verified_of_unwritten (hcompleted _ rfl)⟩
      have hcleared : ¬ MultipartPending { found with multipartUploadId := none } := fun h => h.2 rfl
      exact checkObject_verified (hcompleted _ rfl) (readsSession_append hread)
        (fun _ => asksComplete_append.2 (.inr ⟨_, _, _, rfl⟩)) hcleared
    · rw [completeMultipart_settled hpending]
      exact checkObject_verified (hstart _ rfl fun h => hpending h.1) hread (fun h => absurd h hpending) hpending
  · refine verified_of_unwritten (hstart _ rfl fun h => ?_)
    obtain ⟨-, -, id, s, hmem⟩ := h
    cases List.mem_singleton.1 hmem

end Call

/-! ## Calls one after the other -/

section Calls

/-- One call: its parts, what it exchanged, and how it ended. -/
structure VerifyCall where
  parts : List (ℕ × String)
  exchanges : List (Event JobSig)
  result : Except PyError UploadSession

/-- The calls are made one after the other on the session that is cached. -/
def VerifyCalls (uploadId : String) : UploadSession → List VerifyCall → Prop
  | _, [] => True
  | session, c :: calls => Run (verifyUploadCompletion uploadId c.parts).run c.exchanges c.result ∧
      (∀ ev ∈ c.exchanges, CacheAnswers session ev) ∧ VerifyCalls uploadId (cached session c.exchanges) calls

/-- Once the provider has completed the upload, no later call asks it to again. -/
def CompletedOnce (calls : List VerifyCall) : Prop :=
  calls.Pairwise fun c d => Completed c.exchanges → ¬ AsksComplete d.exchanges

/-- A call that completed the upload wrote the session, or no later call reads it and brings parts. -/
def WrittenOrNotRetried (calls : List VerifyCall) : Prop :=
  calls.Pairwise fun c d =>
    Completed c.exchanges → WroteSession c.exchanges ∨ d.parts = [] ∨ ¬ ReadsSession d.exchanges

variable {uploadId : String} {session : UploadSession} {c : VerifyCall} {calls : List VerifyCall}

theorem verified_of_call (h : VerifyCalls uploadId session (c :: calls)) : Verified session c.parts c.exchanges := by
  have hpost := wp_recording_run (Q := fun _ tr => Verified session c.parts tr)
    (wp_mono (fun r tr hr => by rcases r with e | s <;> exact hr) verifyUploadCompletion_verified) h.1 h.2.1
  exact hpost

theorem asks_of_completed {tr : List (Event JobSig)} (h : Completed tr) : AsksComplete tr := by
  obtain ⟨objectKey, multipartId, parts, hmem⟩ := h
  exact ⟨_, hmem, objectKey, multipartId, parts, rfl⟩

theorem not_asked_of_settled : ∀ {calls : List VerifyCall} {session : UploadSession}, ¬ MultipartPending session →
    VerifyCalls uploadId session calls → ∀ d ∈ calls, ¬ AsksComplete d.exchanges := by
  intro calls
  induction calls with
  | nil =>
    intro _ _ _ d hd
    cases hd
  | cons c calls ih =>
    intro session hsettled h d hd
    have hv := verified_of_call h
    rcases List.mem_cons.1 hd with rfl | hd
    · exact fun hasks => hsettled (hv.asks_iff.1 hasks).1
    · refine ih ?_ h.2.2 d hd
      by_cases hw : WroteSession c.exchanges
      · exact hv.settled hw
      · rw [hv.cached_eq hw]
        exact hsettled

theorem not_asked_iff_of_pending : ∀ {calls : List VerifyCall} {session : UploadSession}, MultipartPending session →
    VerifyCalls uploadId session calls →
      ((∀ d ∈ calls, ¬ AsksComplete d.exchanges) ↔ ∀ d ∈ calls, d.parts = [] ∨ ¬ ReadsSession d.exchanges) := by
  intro calls
  induction calls with
  | nil =>
    intro _ _ _
    exact iff_of_true (fun d hd => by cases hd) fun d hd => by cases hd
  | cons c calls ih =>
    intro session hpending h
    have hv := verified_of_call h
    have hiff : ¬ AsksComplete c.exchanges ↔ c.parts = [] ∨ ¬ ReadsSession c.exchanges := by
      rw [hv.asks_iff]
      constructor
      · intro hnot
        by_cases hparts : c.parts = []
        · exact .inl hparts
        · exact .inr fun hreads => hnot ⟨hpending, hparts, hreads⟩
      · rintro (hparts | hreads) ⟨-, hparts', hreads'⟩
        · exact hparts' hparts
        · exact hreads hreads'
    have hkept : ¬ AsksComplete c.exchanges → cached session c.exchanges = session := fun hnot =>
      hv.cached_eq fun hw => hnot (hv.asks_of_wrote hw hpending)
    have hrest : ¬ AsksComplete c.exchanges →
        ((∀ d ∈ calls, ¬ AsksComplete d.exchanges) ↔ ∀ d ∈ calls, d.parts = [] ∨ ¬ ReadsSession d.exchanges) := by
      intro hnot
      have hcalls := h.2.2
      rw [hkept hnot] at hcalls
      exact ih hpending hcalls
    rw [List.forall_mem_cons, List.forall_mem_cons]
    constructor
    · rintro ⟨hc, hcs⟩
      exact ⟨hiff.1 hc, (hrest hc).1 hcs⟩
    · rintro ⟨hc, hcs⟩
      exact ⟨hiff.2 hc, (hrest (hiff.2 hc)).2 hcs⟩

/-- **Completed once**: over any calls on one session, however each of them fails, the provider is not asked again after it
completed the upload exactly if the call that had it completed wrote the session, or no later call brings parts for it. -/
theorem completed_once_iff : ∀ {calls : List VerifyCall} {session : UploadSession}, VerifyCalls uploadId session calls →
    (CompletedOnce calls ↔ WrittenOrNotRetried calls) := by
  intro calls
  induction calls with
  | nil =>
    intro _ _
    exact iff_of_true .nil .nil
  | cons c calls ih =>
    intro session h
    have hv := verified_of_call h
    have hfirst : (∀ d ∈ calls, Completed c.exchanges → ¬ AsksComplete d.exchanges) ↔
        ∀ d ∈ calls, Completed c.exchanges →
          WroteSession c.exchanges ∨ d.parts = [] ∨ ¬ ReadsSession d.exchanges := by
      by_cases hdone : Completed c.exchanges
      · by_cases hw : WroteSession c.exchanges
        · exact iff_of_true (fun d hd _ => not_asked_of_settled (hv.settled hw) h.2.2 d hd) fun _ _ _ => .inl hw
        · have hpending := (hv.asks_iff.1 (asks_of_completed hdone)).1
          have hcalls := h.2.2
          rw [hv.cached_eq hw] at hcalls
          have hiff := not_asked_iff_of_pending hpending hcalls
          exact ⟨fun hno d hd _ => .inr (hiff.1 (fun d hd => hno d hd hdone) d hd),
            fun hno d hd _ => hiff.2 (fun d hd => (hno d hd hdone).resolve_left hw) d hd⟩
      · exact iff_of_true (fun _ _ h => absurd h hdone) fun _ _ h => absurd h hdone
    unfold CompletedOnce WrittenOrNotRetried at ih ⊢
    rw [List.pairwise_cons, List.pairwise_cons, hfirst, ih h.2.2]

end Calls

/-! ## Concrete calls -/

section Concrete

/-- Ports over the cached session, where every call that `down` names raises. -/
def sessionPorts (down : JobOp → Bool) : Env JobSig UploadSession where
  reply session op :=
    if down op then .error ⟨.other, "port down"⟩
    else match op with
      | .uploads (.getSession _) => .ok (some session)
      | op => .ok (answering op)
  effect := cacheStep

def multipartSession : UploadSession where
  uploadId := "upload-1"
  objectKey := "upload/upload-1.pdf"
  uploadMode := "multipart"
  multipartUploadId := some "multipart-1"

/-- A call with two parts, on the session. -/
def verifyCall (down : JobOp → Bool) (session : UploadSession) : VerifyCall :=
  let run := (verifyUploadCompletion "upload-1" [(2, "b"), (1, "a")]).run.play (sessionPorts down) session
  ⟨[(2, "b"), (1, "a")], run.1, run.2⟩

/-- A call while some ports are down, and a retry when they are up. -/
def retried (down : JobOp → Bool) : List VerifyCall :=
  let first := verifyCall down multipartSession
  [first, verifyCall (fun _ => false) (cached multipartSession first.exchanges)]

def lookDown : JobOp → Bool
  | .uploads (.objectExists _) => true
  | _ => false

instance decidableCacheAnswers (session : UploadSession) : DecidablePred (CacheAnswers session) := fun ev => by
  obtain ⟨op, out, took, h⟩ := ev
  cases op with
  | uploads op =>
    cases op with
    | getSession uploadId =>
      rcases out with e | found
      · exact isTrue trivial
      · exact inferInstanceAs (Decidable (found = some session ∨ found = none))
    | _ => exact isTrue trivial
  | _ => exact isTrue trivial

theorem run_verifyCall (down : JobOp → Bool) (session : UploadSession) :
    Run (verifyUploadCompletion "upload-1" (verifyCall down session).parts).run (verifyCall down session).exchanges
      (verifyCall down session).result :=
  run_play (sessionPorts down) _ session

/-- A call that goes well writes the session, and the retry leaves the provider alone. -/
theorem completed_once_all_ports_up : CompletedOnce (retried fun _ => false) := by
  have hcalls : VerifyCalls "upload-1" multipartSession (retried fun _ => false) :=
    ⟨run_verifyCall _ _, by decide +kernel, run_verifyCall _ _, by decide +kernel, trivial⟩
  refine (completed_once_iff hcalls).2 (List.pairwise_pair.2 fun _ => .inl ?_)
  exact ⟨_, .tail _ (.tail _ (.tail _ (.head _))), rfl, _, rfl⟩

/-- The upload is completed; the look for the object raises; and the retry has it completed again. -/
theorem completed_twice :
    ¬ ∀ (uploadId : String) (session : UploadSession) (calls : List VerifyCall), VerifyCalls uploadId session calls →
      CompletedOnce calls := by
  intro h
  have hcalls : VerifyCalls "upload-1" multipartSession (retried lookDown) :=
    ⟨run_verifyCall _ _, by decide +kernel, run_verifyCall _ _, by decide +kernel, trivial⟩
  have honce := List.pairwise_pair.1 (h "upload-1" multipartSession (retried lookDown) hcalls)
  refine honce ⟨_, _, _, .tail _ (.head _)⟩ ⟨_, .tail _ (.head _), _, _, _, rfl⟩

end Concrete

end Transform.Conversions
