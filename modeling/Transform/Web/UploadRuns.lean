import Transform.Conversions.VerifyRequest
import Transform.Web.UploadEngine

/-!
# Web.UploadRuns — what an upload in parts leaves in the store

* `verify_assembles`, `verify_refused_iff`: what a verify call does with a list of parts, and which lists it refuses.
* `Knows`: what holds of a worker at each point of its loop; the workers claim every part once.
* `upload_whole_iff`: an upload that ends well has stored its file exactly if every part exposed its ETag.
-/

namespace Transform.Web

open Lib Conversions

variable {plan : UploadPlan}

/-! ## Verifying -/

section Verify

variable {s : StoreState} {uploadId : String} {parts : List (ℕ × String)}

def byNumber (parts : List (ℕ × String)) : List (ℕ × String) := parts.mergeSort fun a b => a.1 ≤ b.1

theorem wpe_upload {op : UploadOp} {Q : op.Ans → StoreState → Prop} {E : PyError → StoreState → Prop} :
    wpe serverAlone (call (.uploads op)) Q E s ↔
      (∀ a, s.Permits (⟨op, .ok a, true, fun _ _ => rfl⟩ : Event (UploadSig PyError)) →
        Q a (s.serve (⟨op, .ok a, true, fun _ _ => rfl⟩ : Event (UploadSig PyError)))) ∧
      ∀ e took h, s.Permits (⟨op, .error e, took, h⟩ : Event (UploadSig PyError)) →
        E e (s.serve (⟨op, .error e, took, h⟩ : Event (UploadSig PyError))) := by
  unfold call
  rw [wpe_ask]
  constructor
  · rintro ⟨-, hok, herr⟩
    refine ⟨fun a ha => hok a fun up hup => ?_, fun e took h he => herr e took h fun up hup => ?_⟩
    · obtain rfl := Option.some.inj hup
      exact ha
    · obtain rfl := Option.some.inj hup
      exact he
  · rintro ⟨hok, herr⟩
    exact ⟨⟨op, rfl⟩, fun a ha => hok a (ha _ rfl), fun e took h he => herr e took h (he _ rfl)⟩

/-- **A verify call** that returns has had the object assembled from the list, by ascending numbers. -/
theorem verify_assembles (hobject : s.object = none) :
    wpe serverAlone (verifyUploadCompletion uploadId parts)
      (fun _ s' => s.Accepts (byNumber parts) ∧ s'.object = some (s.assemble (byNumber parts)) ∧
        s'.listed = some (byNumber parts)) (fun _ _ => True) s := by
  unfold verifyUploadCompletion
  rw [wpe_bind, wpe_upload]
  refine ⟨fun session? _ => ?_, fun _ _ _ _ => trivial⟩
  rcases session? with _ | session
  · trivial
  have hcheck : ∀ (session : UploadSession) (s' : StoreState), (s'.object.isSome = true → s.Accepts (byNumber parts) ∧
      s'.object = some (s.assemble (byNumber parts)) ∧ s'.listed = some (byNumber parts)) →
      wpe serverAlone (do
        if ← call (.uploads (.objectExists session.objectKey)) then
          let session := { session with status := "completed" }
          call (.uploads (.setSession session))
          return session
        else .throw ⟨.uploadVerification, s!"Upload for session {uploadId} is not complete or failed."⟩)
        (fun _ s' => s.Accepts (byNumber parts) ∧ s'.object = some (s.assemble (byNumber parts)) ∧
          s'.listed = some (byNumber parts)) (fun _ _ => True) s' := by
    intro session s' h
    rw [wpe_bind, wpe_upload]
    refine ⟨fun found hfound => ?_, fun _ _ _ _ => trivial⟩
    obtain rfl : found = s'.object.isSome := hfound
    split_ifs with hsome
    · rw [wpe_bind, wpe_upload]
      exact ⟨fun _ _ => h hsome, fun _ _ _ _ => trivial⟩
    · trivial
  dsimp only
  rw [wpe_bind]
  unfold verifyUploadCompletion.completeMultipart
  split
  · split_ifs
    · trivial
    · rw [wpe_bind, wpe_upload]
      refine ⟨fun _ haccepted => hcheck _ _ fun _ => ⟨haccepted rfl, rfl, rfl⟩, fun _ _ _ _ => trivial⟩
  · refine hcheck _ _ fun hsome => ?_
    change s.object.isSome = true at hsome
    rw [hobject] at hsome
    cases hsome

/-- The session has a multipart upload of so many parts that is still to be completed. -/
def Open (s : StoreState) (uploadId : String) (partCount : ℕ) : Prop :=
  ∃ planned, s.session = some planned ∧ planned.uploadId = uploadId ∧ planned.uploadMode = "multipart" ∧
    planned.multipartUploadId ≠ none ∧ planned.partCount = some partCount

def Exactly (partCount : ℕ) (parts : List (ℕ × String)) : Prop := (parts.map (·.1)).Perm (List.range' 1 partCount)

/-- The call raises, and the session stays as it was. -/
def Refused (s : StoreState) (uploadId : String) (parts : List (ℕ × String)) : Prop :=
  wpe serverAlone (verifyUploadCompletion uploadId parts) (fun _ _ => False) (fun _ s' => s'.session = s.session) s

/-- **Refused** is the empty list, and one that the store does not accept. -/
theorem verify_refused_iff {partCount : ℕ} (hopen : Open s uploadId partCount) :
    Refused s uploadId parts ↔ parts = [] ∨ ¬ s.Accepts (byNumber parts) := by
  obtain ⟨planned, hsession, hid, hmode, hmultipart, -⟩ := hopen
  obtain ⟨multipartId, hmultipart⟩ := Option.ne_none_iff_exists'.1 hmultipart
  have hfound : (s.session.filter (·.uploadId = uploadId)).map (·.toUploadSession) = some planned.toUploadSession := by
    rw [hsession, Option.filter_some, if_pos (by simpa using hid), Option.map_some]
  have hcomplete : verifyUploadCompletion.completeMultipart parts planned.toUploadSession =
      if parts = [] then .throw ⟨.missingUploadParts, "A multipart upload must be finalized with its part list."⟩
      else do
        call (.uploads (.completeMultipartUpload planned.objectKey multipartId (byNumber parts)))
        return { planned.toUploadSession with multipartUploadId := none } := completeMultipart_pending hmode hmultipart
  unfold Refused verifyUploadCompletion
  rw [wpe_bind, wpe_upload]
  constructor
  · intro h
    have hread := h.1 _ hfound.symm
    dsimp only at hread
    rw [wpe_bind, hcomplete] at hread
    by_contra hnot
    obtain ⟨hparts, haccepted⟩ := not_or.1 hnot
    rw [if_neg hparts, wpe_bind, wpe_upload] at hread
    have hassembled := hread.1 () fun _ => not_not.1 haccepted
    rw [wpe_pure, wpe_bind, wpe_upload] at hassembled
    have hexists := hassembled.1 true rfl
    rw [if_pos rfl, wpe_bind, wpe_upload] at hexists
    exact hexists.1 () trivial
  · intro h
    refine ⟨fun session? hsession? => ?_, fun e took hk _ => ?_⟩
    · obtain rfl : session? = some planned.toUploadSession := Eq.trans hsession? hfound
      dsimp only
      rw [wpe_bind, hcomplete]
      split_ifs with hparts
      · rfl
      · have hrefused := h.resolve_left hparts
        rw [wpe_bind, wpe_upload]
        refine ⟨fun _ haccepted => absurd (haccepted rfl) hrefused, fun e took hk haccepted => ?_⟩
        rcases took with _ | _
        · rfl
        · exact absurd (haccepted rfl) hrefused
    · rfl

end Verify

/-! ## One worker -/

section Worker

/-- How far a worker is. -/
inductive Grip
  | free
  | holding (partNumber : ℕ)
  | answered (partNumber : ℕ) (etag : Option String)
  | entered (partNumber : ℕ) (etag : String)
  | finished
  | gone

/-- What a worker may ask. -/
def Grip.May (plan : UploadPlan) (g : Grip) : EngineOp → Prop
  | .aborted => g ≠ .gone
  | .sleep _ => g ≠ .gone
  | .urlOf _ => g ≠ .gone
  | .awaitBatch _ _ => g ≠ .gone
  | .claimPart totalParts => g = .free ∧ totalParts = plan.totalParts
  | .put url blob => g = .holding url.partNumber ∧ blob = plan.slice url.partNumber
  | .setEtag partNumber etag => g = .answered partNumber (some etag) ∧ etag ≠ ""
  | .completePart partNumber _ =>
    (∃ etag, g = .entered partNumber etag) ∨ ∃ etag, g = .answered partNumber etag ∧ truthy etag = none
  | .workerReturned => g = .finished
  | _ => False

def Grip.step (g : Grip) : Event EngineSig → Grip
  | ⟨.claimPart totalParts, .ok partNumber, _, _⟩ => if totalParts < partNumber then .finished else .holding partNumber
  | ⟨.put url _, .ok answer, _, _⟩ => .answered url.partNumber answer.result
  | ⟨.setEtag partNumber etag, .ok _, _, _⟩ => .entered partNumber etag
  | ⟨.completePart _ _, .ok _, _, _⟩ => .free
  | ⟨.workerReturned, .ok _, _, _⟩ => .gone
  | _ => g

/-- A URL that is handed out is one of the part that it is asked for. -/
def UrlOfPart : Event EngineSig → Prop
  | ⟨.urlOf partNumber, .ok (some url), _, _⟩ => url.partNumber = partNumber
  | _ => True

theorem urlOfPart_ok {n : ℕ} {url? : Option PartUrl} {took : Bool}
    {hok : ∀ a, (.ok url? : Except EngineError (Option PartUrl)) = .ok a → took = true}
    (h : ∀ url, url? = some url → url.partNumber = n) : UrlOfPart ⟨.urlOf n, .ok url?, took, hok⟩ := by
  rcases url? with _ | url
  · trivial
  · exact h url rfl

def workerMonitor (plan : UploadPlan) : Monitor EngineSig Grip := ⟨Grip.May plan, fun _ => UrlOfPart, Grip.step⟩

variable {g : Grip} {n : ℕ}

theorem wpe_onEngine {op : EngineOp} {Q : op.Ans → Grip → Prop} (hmay : g.May plan op)
    (hQ : ∀ a, UrlOfPart ⟨op, .ok a, true, fun _ _ => rfl⟩ → Q a (g.step ⟨op, .ok a, true, fun _ _ => rfl⟩)) :
    wpe (workerMonitor plan) (onEngine op) Q (fun _ _ => True) g :=
  wpe_ask.2 ⟨hmay, hQ, fun _ _ _ _ => trivial⟩

theorem wpe_throwIfAborted (hg : g ≠ .gone) :
    wpe (workerMonitor plan) throwIfAborted (fun _ g' => g' = g) (fun _ g' => g' = g) g := by
  unfold throwIfAborted
  rw [wpe_bind]
  refine wpe_ask.2 ⟨hg, fun stop _ => ?_, fun _ _ _ _ => rfl⟩
  rcases stop with _ | _ <;> exact rfl

theorem wpe_urlOf {α : Type} {found : PartUrl → EngineM α} {missing : EngineM α} {Q : α → Grip → Prop}
    (hfound : ∀ url : PartUrl, url.partNumber = n → wpe (workerMonitor plan) (found url) Q (fun _ _ => True) (.holding n))
    (hmissing : wpe (workerMonitor plan) missing Q (fun _ _ => True) (.holding n)) :
    wpe (workerMonitor plan) (do
      match ← onEngine (.urlOf n) with
      | some url => found url
      | none => missing) Q (fun _ _ => True) (.holding n) := by
  rw [wpe_bind]
  refine wpe_onEngine (by simp [Grip.May]) fun url? hurl => ?_
  rcases url? with _ | url
  · exact hmissing
  · exact hfound url hurl

theorem wpe_mintUrl : wpe (workerMonitor plan) (mintUrl plan n)
    (fun url g' => g' = .holding n ∧ url.partNumber = n) (fun _ _ => True) (.holding n) := by
  unfold mintUrl
  refine wpe_urlOf (fun url hurl => ⟨rfl, hurl⟩) ?_
  rw [wpe_bind]
  refine wpe_onEngine (by simp [Grip.May]) fun _ _ => ?_
  exact wpe_urlOf (fun url hurl => ⟨rfl, hurl⟩) trivial

/-- What the PUT of a held part gives, in whichever attempt. -/
def Answered (n : ℕ) (etag : Option String) (g : Grip) : Prop := g = .answered n etag

theorem wpe_putOnce {url : PartUrl} {again : EngineError → EngineM (Option String)} (hurl : url.partNumber = n)
    (hagain : ∀ e, wpe (workerMonitor plan) (again e) (Answered n) (fun _ _ => True) (.holding n)) :
    wpe (workerMonitor plan) (putOnce url (plan.slice n) again) (Answered n) (fun _ _ => True) (.holding n) := by
  subst hurl
  unfold putOnce
  rw [wpe_bind]
  refine wpe_mono (wpe_throwIfAborted (by simp)) ?_ fun _ _ _ => trivial
  rintro - g rfl
  rw [wpe_tryCatch, wpe_bind]
  refine wpe_ask.2 ⟨⟨rfl, rfl⟩, fun answer _ => rfl, fun error took hk _ => ?_⟩
  dsimp only
  split_ifs
  · trivial
  · rw [wpe_bind]
    refine wpe_onEngine (by simp [Grip.May, workerMonitor, Grip.step]) fun stop _ => ?_
    rcases stop with _ | _
    · exact hagain error
    · trivial

theorem wpe_putWithRetry {url : PartUrl} (hurl : url.partNumber = n) : ∀ {delays : List ℕ},
    wpe (workerMonitor plan) (putWithRetry url (plan.slice n) delays) (Answered n) (fun _ _ => True) (.holding n)
  | [] => wpe_putOnce hurl fun _ => trivial
  | ms :: delays => by
    refine wpe_putOnce hurl fun _ => ?_
    rw [wpe_bind]
    exact wpe_onEngine (by simp [Grip.May]) fun _ _ => wpe_putWithRetry hurl

theorem wpe_uploadPart : wpe (workerMonitor plan) (uploadPart plan n) (fun _ g' => g' = .free) (fun _ _ => True)
    (.holding n) := by
  unfold uploadPart
  rw [wpe_bind]
  refine wpe_mono wpe_mintUrl ?_ fun _ _ _ => trivial
  rintro url g ⟨rfl, hurl⟩
  rw [wpe_bind]
  refine wpe_mono (wpe_putWithRetry hurl) ?_ fun _ _ _ => trivial
  rintro etag g rfl
  rcases hetag : truthy etag with _ | e
  · exact wpe_onEngine (.inr ⟨etag, rfl, hetag⟩) fun _ _ => rfl
  · obtain ⟨hsome, hne⟩ : etag = some e ∧ e ≠ "" := by simpa [truthy, Option.filter_eq_some_iff] using hetag
    subst hsome
    rw [wpe_bind]
    refine wpe_onEngine ⟨rfl, hne⟩ fun _ _ => ?_
    exact wpe_onEngine (.inl ⟨e, rfl⟩) fun _ _ => rfl

theorem wpe_worker : ∀ {rounds : ℕ},
    wpe (workerMonitor plan) (worker plan rounds) (fun _ g' => g' = .finished) (fun _ _ => True) .free
  | 0 => trivial
  | rounds + 1 => by
    unfold worker
    rw [wpe_bind]
    refine wpe_mono (wpe_throwIfAborted (by simp)) ?_ fun _ _ _ => trivial
    rintro - g rfl
    rw [wpe_bind]
    refine wpe_onEngine ⟨rfl, rfl⟩ fun partNumber _ => ?_
    by_cases hlast : plan.totalParts < partNumber
    · rw [if_pos hlast]
      exact if_pos hlast
    · have hheld : Grip.step .free ⟨.claimPart plan.totalParts, .ok partNumber, true, fun _ _ => rfl⟩ =
          .holding partNumber := if_neg hlast
      rw [if_neg hlast, hheld, wpe_bind]
      refine wpe_mono wpe_uploadPart ?_ fun _ _ _ => trivial
      rintro - g rfl
      exact wpe_worker

theorem wp_workerThread {rounds : ℕ} :
    wp (workerMonitor plan) (Lib.thread (workerThread plan rounds)) (fun _ _ => True) .free := by
  refine wp_thread_of_wpe (R := fun _ => True) ?_
  unfold workerThread
  rw [wpe_bind]
  refine wpe_mono wpe_worker ?_ fun _ _ _ => trivial
  rintro - g rfl
  exact wpe_onEngine rfl fun _ _ => trivial

end Worker

/-! ## The workers together -/

section Workers

variable {w : UploadState} {i j n : ℕ} {g : Grip}

def AllExposed (plan : UploadPlan) (w : UploadState) : Prop :=
  ∀ n, 1 ≤ n → n ≤ plan.totalParts → ∃ etag, etag ≠ "" ∧ w.answered n = some (some etag)

/-- The object is the file, assembled from every part once, in order, each with the ETag that its PUT was given. -/
def Whole (plan : UploadPlan) (w : UploadState) : Prop :=
  w.object = some plan.file ∧ ∃ listed, w.listed = some listed ∧ listed.map (·.1) = List.range' 1 plan.totalParts ∧
    ∀ part ∈ listed, w.answered part.1 = some (some part.2)

/-- What has been assembled: the file from all of its parts, or something else where an ETag was not exposed. -/
def Outcome (plan : UploadPlan) (w : UploadState) : Prop :=
  (AllExposed plan w → Whole plan w) ∧ (¬ AllExposed plan w → w.object ≠ some plan.file)

/-- What holds of what the workers share. -/
structure UploadInv (plan : UploadPlan) (w : UploadState) : Prop where
  next_pos : 1 ≤ w.nextPart
  next_le : w.nextPart ≤ plan.totalParts + 1
  claimed : ∀ n, w.claimedBy n ≠ none ↔ 1 ≤ n ∧ n < w.nextPart
  claimer : ∀ n i, w.claimedBy n = some i → i < plan.concurrency ∧ i ∈ w.started
  stored : ∀ n part, w.stored n = some part → part.bytes = plan.slice n
  urls : ∀ n url, w.urls n = some url → url.partNumber = n
  completed : ∀ n, w.completed n = true → w.claimedBy n ≠ none ∧ w.stored n ≠ none ∧
    ∃ etag, w.answered n = some etag ∧ ∀ e, truthy etag = some e → (n, e) ∈ w.etags
  entries : ∀ n e, (n, e) ∈ w.etags → w.claimedBy n ≠ none ∧ e ≠ "" ∧ w.answered n = some (some e)
  keys : (w.etags.map (·.1)).Nodup
  started : ∀ i ∈ w.returned, i ∈ w.started
  returned : ∀ i ∈ w.returned, w.nextPart = plan.totalParts + 1 ∧ ∀ n, w.claimedBy n = some i → w.completed n = true
  verifying : w.verifying ≠ none → ∀ i, i < plan.concurrency → i ∈ w.returned
  object : w.verifying = none → w.object = none ∧ w.resolved = false
  outcome : w.resolved = true → Outcome plan w

/-- The thread has one part in hand, and has completed the others that it claimed. -/
structure InHand (w : UploadState) (i n : ℕ) : Prop where
  mine : w.claimedBy n = some i
  open_ : w.completed n = false
  others : ∀ m, m ≠ n → w.claimedBy m = some i → w.completed m = true

/-- What a worker knows at each point of its loop. -/
def Grip.Stands (plan : UploadPlan) (w : UploadState) (i : ℕ) : Grip → Prop
  | .free => ∀ n, w.claimedBy n = some i → w.completed n = true
  | .holding n => InHand w i n ∧ n ∉ w.etags.map (·.1)
  | .answered n etag => InHand w i n ∧ n ∉ w.etags.map (·.1) ∧ w.answered n = some etag ∧ w.stored n ≠ none
  | .entered n etag => InHand w i n ∧ (n, etag) ∈ w.etags ∧ w.answered n = some (some etag) ∧ w.stored n ≠ none
  | .finished => w.nextPart = plan.totalParts + 1 ∧ ∀ n, w.claimedBy n = some i → w.completed n = true
  | .gone => True

structure Knows (plan : UploadPlan) (w : UploadState) (i : ℕ) (g : Grip) : Prop where
  below : i < plan.concurrency
  started : i ∈ w.started
  returned : i ∈ w.returned ↔ g = .gone
  stands : g.Stands plan w i

/-- A change that leaves the parts of a thread alone. -/
structure Apart (plan : UploadPlan) (w w' : UploadState) (j : ℕ) : Prop where
  claimedBy : ∀ n, w'.claimedBy n = some j ↔ w.claimedBy n = some j
  part : ∀ n, w.claimedBy n = some j → w'.completed n = w.completed n ∧ w'.answered n = w.answered n ∧
    w'.stored n = w.stored n ∧ ∀ e, (n, e) ∈ w'.etags ↔ (n, e) ∈ w.etags
  started : j ∈ w.started → j ∈ w'.started
  returned : j ∈ w'.returned ↔ j ∈ w.returned
  next : w.nextPart = plan.totalParts + 1 → w'.nextPart = plan.totalParts + 1

theorem knows_apart {w' : UploadState} (h : Apart plan w w' j) (hk : Knows plan w j g) : Knows plan w' j g := by
  have hhand : ∀ n, InHand w j n → InHand w' j n := by
    rintro n ⟨hmine, hopen, hothers⟩
    refine ⟨(h.claimedBy n).2 hmine, ?_, fun m hm hclaimed => ?_⟩
    · rw [(h.part n hmine).1]
      exact hopen
    · have hmine' := (h.claimedBy m).1 hclaimed
      rw [(h.part m hmine').1]
      exact hothers m hm hmine'
  have hkeys : ∀ n, w.claimedBy n = some j → (n ∈ w'.etags.map (·.1) ↔ n ∈ w.etags.map (·.1)) := by
    intro n hmine
    simp only [List.mem_map, Prod.exists, exists_and_right, exists_eq_right]
    exact exists_congr (h.part n hmine).2.2.2
  have hdone : (∀ n, w.claimedBy n = some j → w.completed n = true) →
      ∀ n, w'.claimedBy n = some j → w'.completed n = true := by
    intro hall n hclaimed
    have hmine := (h.claimedBy n).1 hclaimed
    rw [(h.part n hmine).1]
    exact hall n hmine
  refine ⟨hk.below, h.started hk.started, h.returned.trans hk.returned, ?_⟩
  have hstands := hk.stands
  cases g with
  | free => exact hdone hstands
  | holding n =>
    obtain ⟨hn, hnew⟩ := hstands
    exact ⟨hhand n hn, fun hmem => hnew ((hkeys n hn.mine).1 hmem)⟩
  | answered n etag =>
    obtain ⟨hn, hnew, hanswered, hstored⟩ := hstands
    refine ⟨hhand n hn, fun hmem => hnew ((hkeys n hn.mine).1 hmem), ?_, ?_⟩
    · rw [(h.part n hn.mine).2.1]
      exact hanswered
    · rw [(h.part n hn.mine).2.2.1]
      exact hstored
  | entered n etag =>
    obtain ⟨hn, hmem, hanswered, hstored⟩ := hstands
    refine ⟨hhand n hn, ((h.part n hn.mine).2.2.2 etag).2 hmem, ?_, ?_⟩
    · rw [(h.part n hn.mine).2.1]
      exact hanswered
    · rw [(h.part n hn.mine).2.2.1]
      exact hstored
  | finished => exact ⟨h.next hstands.1, hdone hstands.2⟩
  | gone => trivial

/-- A change of nothing that the workers' parts are about. -/
theorem apart_of_eq {w' : UploadState} (h1 : w'.claimedBy = w.claimedBy) (h2 : w'.completed = w.completed)
    (h3 : w'.answered = w.answered) (h4 : w'.stored = w.stored) (h5 : w'.etags = w.etags) (h6 : w'.started = w.started)
    (h7 : w'.returned = w.returned) (h8 : w'.nextPart = w.nextPart) : Apart plan w w' j := by
  refine ⟨fun n => by rw [h1], fun n _ => ?_, fun h => by rwa [h6], by rw [h7], fun h => by rwa [h8]⟩
  rw [h2, h3, h4, h5]
  exact ⟨rfl, rfl, rfl, fun _ => Iff.rfl⟩

/-- After a step of a worker what is shared is in order, the worker knows where it is, and the others are not touched. -/
structure Advances (plan : UploadPlan) (w w' : UploadState) (i : ℕ) (g' : Grip) : Prop where
  inv : UploadInv plan w'
  knows : Knows plan w' i g'
  apart : ∀ j, j ≠ i → Apart plan w w' j

theorem advances_refl (hI : UploadInv plan w) (hk : Knows plan w i g) : Advances plan w w i g :=
  ⟨hI, hk, fun _ _ => apart_of_eq rfl rfl rfl rfl rfl rfl rfl rfl⟩

theorem unverified (hI : UploadInv plan w) (hk : Knows plan w i g) (hg : g ≠ .gone) : w.verifying = none := by
  by_contra h
  exact hg (hk.returned.1 (hI.verifying h i hk.below))

theorem mem_mint {partNumbers : List ℕ} {minted : List (ℕ × PartUrl)} (h : w.mint partNumbers = some minted) :
    ∀ part ∈ minted, part.2.partNumber = part.1 := by
  unfold UploadState.mint at h
  split at h
  · rename_i session _
    unfold generatePartUrls at h
    split at h
    · dsimp only at h
      split at h
      · cases h
      · cases h
        intro part hpart
        obtain ⟨number, -, rfl⟩ := List.mem_map.1 hpart
        rfl
    · cases h
  · cases h

theorem withUrls_part {minted : List (ℕ × PartUrl)} (hminted : ∀ part ∈ minted, part.2.partNumber = part.1)
    (h : ∀ n url, w.urls n = some url → url.partNumber = n) :
    ∀ n url, w.withUrls minted n = some url → url.partNumber = n := by
  unfold UploadState.withUrls
  revert h
  generalize w.urls = urls
  induction minted generalizing urls with
  | nil => exact id
  | cons part minted ih =>
    intro h
    refine ih (fun other hother => hminted other (List.mem_cons_of_mem _ hother)) _ fun n url hurl => ?_
    dsimp only at hurl
    by_cases hn : n = part.1
    · rw [hn, Function.update_self] at hurl
      rw [← Option.some.inj hurl, hn]
      exact hminted part List.mem_cons_self
    · rw [Function.update_of_ne hn] at hurl
      exact h n url hurl

theorem advances_urls (hI : UploadInv plan w) (hk : Knows plan w i g) {urls : ℕ → Option PartUrl}
    {batchRequests : ℕ → Option Bool} (hurls : ∀ n url, urls n = some url → url.partNumber = n) :
    Advances plan w { w with urls, batchRequests } i g := by
  have hknows : ∀ j g, Knows plan w j g → Knows plan { w with urls, batchRequests } j g := fun j g =>
    knows_apart (apart_of_eq rfl rfl rfl rfl rfl rfl rfl rfl)
  exact ⟨{ hI with urls := hurls }, hknows i g hk, fun _ _ => apart_of_eq rfl rfl rfl rfl rfl rfl rfl rfl⟩

theorem advances_claim (hI : UploadInv plan w) (hk : Knows plan w i .free) (hleft : ¬ plan.totalParts < w.nextPart) :
    Advances plan w { w with
      nextPart := w.nextPart + 1, claimedBy := Function.update w.claimedBy w.nextPart (some i) } i (.holding w.nextPart) := by
  have hfresh : w.claimedBy w.nextPart = none := by
    by_contra h
    have hlt := ((hI.claimed _).1 h).2
    omega
  have hother : ∀ n, w.claimedBy n ≠ none → n ≠ w.nextPart := by
    rintro n hn rfl
    exact hn hfresh
  have hclaimed : ∀ n, w.claimedBy n ≠ none → Function.update w.claimedBy w.nextPart (some i) n ≠ none := by
    intro n hn
    rw [Function.update_of_ne (hother n hn)]
    exact hn
  refine ⟨⟨?_, ?_, ?_, ?_, hI.stored, hI.urls, ?_, ?_, hI.keys, hI.started, ?_, hI.verifying, hI.object, hI.outcome⟩,
    ⟨hk.below, hk.started, by simpa using hk.returned, ⟨?_, ?_, ?_⟩, ?_⟩, fun j hj => ?_⟩
  · exact Nat.le_succ_of_le hI.next_pos
  · show w.nextPart + 1 ≤ _
    omega
  · intro n
    show Function.update w.claimedBy w.nextPart (some i) n ≠ none ↔ 1 ≤ n ∧ n < w.nextPart + 1
    by_cases hn : n = w.nextPart
    · subst hn
      have hpos := hI.next_pos
      simp only [Function.update_self]
      exact iff_of_true (Option.some_ne_none _) ⟨hpos, by omega⟩
    · rw [Function.update_of_ne hn, hI.claimed]
      omega
  · intro n k hn
    change Function.update w.claimedBy w.nextPart (some i) n = some k at hn
    by_cases hsame : n = w.nextPart
    · subst hsame
      rw [Function.update_self] at hn
      obtain rfl := Option.some.inj hn
      exact ⟨hk.below, hk.started⟩
    · rw [Function.update_of_ne hsame] at hn
      exact hI.claimer n k hn
  · intro n hn
    obtain ⟨h1, h2⟩ := hI.completed n hn
    exact ⟨hclaimed n h1, h2⟩
  · intro n e hn
    obtain ⟨h1, h2⟩ := hI.entries n e hn
    exact ⟨hclaimed n h1, h2⟩
  · intro k hret
    have hnext := (hI.returned k hret).1
    omega
  · exact Function.update_self ..
  · by_contra hdone
    exact (hI.completed _ (by simpa using hdone)).1 hfresh
  · intro m hm hmine
    change Function.update w.claimedBy w.nextPart (some i) m = some i at hmine
    rw [Function.update_of_ne hm] at hmine
    exact hk.stands m hmine
  · intro hmem
    obtain ⟨⟨n, e⟩, hentry, hn⟩ := List.mem_map.1 hmem
    obtain rfl : n = w.nextPart := hn
    exact (hI.entries _ _ hentry).1 hfresh
  · refine ⟨fun n => ?_, fun _ _ => ⟨rfl, rfl, rfl, fun _ => Iff.rfl⟩, id, Iff.rfl, fun h => ?_⟩
    · show Function.update w.claimedBy w.nextPart (some i) n = some j ↔ _
      by_cases hn : n = w.nextPart
      · subst hn
        rw [Function.update_self, hfresh]
        simp [Ne.symm hj]
      · rw [Function.update_of_ne hn]
    · omega

theorem ne_of_open (hopen : w.completed n = false) {m : ℕ} (hm : w.completed m = true) : m ≠ n := by
  rintro rfl
  rw [hopen] at hm
  cases hm

theorem ne_of_new (hnew : n ∉ w.etags.map (·.1)) {m : ℕ} {e : String} (hm : (m, e) ∈ w.etags) : m ≠ n := by
  rintro rfl
  exact hnew (List.mem_map.2 ⟨_, hm, rfl⟩)

theorem ne_of_mine {m : ℕ} (hmine : w.claimedBy n = some i) (hm : w.claimedBy m = some j) (hj : j ≠ i) : m ≠ n := by
  rintro rfl
  exact hj (Option.some.inj (hm.symm.trans hmine))

theorem advances_put (hI : UploadInv plan w) (hk : Knows plan w i (.holding n)) {part : StoredPart}
    (hbytes : part.bytes = plan.slice n) {answered : ℕ → Option (Option String)}
    (hanswered : ∀ m, m ≠ n → answered m = w.answered m) :
    Advances plan w { w with stored := Function.update w.stored n (some part), answered } i (.holding n) ∧
      ∀ etag, answered n = some etag →
        Knows plan { w with stored := Function.update w.stored n (some part), answered } i (.answered n etag) := by
  obtain ⟨hhand, hnew⟩ := hk.stands
  have hresolved := (hI.object (unverified hI hk (by simp))).2
  have hstored : ∀ m, m ≠ n → Function.update w.stored n (some part) m = w.stored m := fun m hm =>
    Function.update_of_ne hm _ _
  have hhand' : InHand { w with stored := Function.update w.stored n (some part), answered } i n :=
    ⟨hhand.mine, hhand.open_, hhand.others⟩
  refine ⟨⟨⟨hI.next_pos, hI.next_le, hI.claimed, hI.claimer, ?_, hI.urls, ?_, ?_, hI.keys, hI.started, hI.returned,
    hI.verifying, hI.object, ?_⟩, ⟨hk.below, hk.started, by simpa using hk.returned, hhand', hnew⟩, fun j hj => ?_⟩, ?_⟩
  · intro m other hother
    change Function.update w.stored n (some part) m = some other at hother
    by_cases hm : m = n
    · rw [hm, Function.update_self] at hother
      rw [← Option.some.inj hother, hm]
      exact hbytes
    · rw [hstored m hm] at hother
      exact hI.stored m other hother
  · intro m hm
    obtain ⟨hclaimed, hkept, etag, hetag, hentry⟩ := hI.completed m hm
    have hne := ne_of_open hhand.open_ hm
    exact ⟨hclaimed, fun h => hkept ((hstored m hne).symm.trans h), etag, (hanswered m hne).trans hetag, hentry⟩
  · intro m e hm
    obtain ⟨hclaimed, hne, hetag⟩ := hI.entries m e hm
    exact ⟨hclaimed, hne, (hanswered m (ne_of_new hnew hm)).trans hetag⟩
  · intro h
    change w.resolved = true at h
    rw [hresolved] at h
    cases h
  · refine ⟨fun _ => Iff.rfl, fun m hm => ?_, id, Iff.rfl, id⟩
    have hne := ne_of_mine hhand.mine hm hj
    exact ⟨rfl, hanswered m hne, hstored m hne, fun _ => Iff.rfl⟩
  · intro etag hetag
    refine ⟨hk.below, hk.started, by simpa using hk.returned, hhand', hnew, hetag, ?_⟩
    show Function.update w.stored n (some part) n ≠ none
    rw [Function.update_self]
    exact Option.some_ne_none _

theorem advances_setEtag {etag : String} (hI : UploadInv plan w) (hk : Knows plan w i (.answered n (some etag)))
    (hne : etag ≠ "") : Advances plan w { w with etags := mapSet w.etags n etag } i (.entered n etag) := by
  obtain ⟨hhand, hnew, hanswered, hstored⟩ := hk.stands
  have hresolved := (hI.object (unverified hI hk (by simp))).2
  have hset : mapSet w.etags n etag = w.etags ++ [(n, etag)] := mapSet_new hnew
  rw [hset]
  refine ⟨⟨hI.next_pos, hI.next_le, hI.claimed, hI.claimer, hI.stored, hI.urls, ?_, ?_, ?_, hI.started, hI.returned,
    hI.verifying, hI.object, ?_⟩, ⟨hk.below, hk.started, by simpa using hk.returned,
      ⟨hhand.mine, hhand.open_, hhand.others⟩, by simp, hanswered, hstored⟩, fun j hj => ?_⟩
  · intro m hm
    obtain ⟨hclaimed, hkept, other, hother, hentry⟩ := hI.completed m hm
    exact ⟨hclaimed, hkept, other, hother, fun e he => List.mem_append_left _ (hentry e he)⟩
  · intro m e hm
    rcases List.mem_append.1 hm with hm | hm
    · exact hI.entries m e hm
    · obtain ⟨rfl, rfl⟩ : m = n ∧ e = etag := by simpa using hm
      refine ⟨?_, hne, hanswered⟩
      show w.claimedBy m ≠ none
      rw [hhand.mine]
      exact Option.some_ne_none _
  · show ((w.etags ++ [(n, etag)]).map (·.1)).Nodup
    rw [List.map_append, List.nodup_append]
    refine ⟨hI.keys, List.nodup_singleton _, ?_⟩
    rintro m hm m' hm' rfl
    obtain rfl := List.mem_singleton.1 hm'
    exact hnew hm
  · intro h
    change w.resolved = true at h
    rw [hresolved] at h
    cases h
  · refine ⟨fun _ => Iff.rfl, fun m hm => ⟨rfl, rfl, rfl, fun e => ?_⟩, id, Iff.rfl, id⟩
    have hne := ne_of_mine hhand.mine hm hj
    show (m, e) ∈ w.etags ++ [(n, etag)] ↔ _
    simp [hne]

theorem advances_complete (hI : UploadInv plan w) (hk : Knows plan w i g) (hg : g ≠ .gone) (hhand : InHand w i n)
    {etag : Option String} (hanswered : w.answered n = some etag) (hstored : w.stored n ≠ none)
    (hentered : ∀ e, truthy etag = some e → (n, e) ∈ w.etags) :
    Advances plan w { w with completed := Function.update w.completed n true } i .free := by
  have hresolved := (hI.object (unverified hI hk hg)).2
  have hkept : ∀ m, w.completed m = true → Function.update w.completed n true m = true := by
    intro m hm
    rw [Function.update_of_ne (ne_of_open hhand.open_ hm)]
    exact hm
  have hfree : ∀ m, w.claimedBy m = some i → Function.update w.completed n true m = true := by
    intro m hm
    by_cases hmn : m = n
    · rw [hmn, Function.update_self]
    · exact hkept m (hhand.others m hmn hm)
  have hnot : i ∉ w.returned := fun h => hg (hk.returned.1 h)
  refine ⟨⟨hI.next_pos, hI.next_le, hI.claimed, hI.claimer, hI.stored, hI.urls, ?_, hI.entries, hI.keys, hI.started, ?_,
    hI.verifying, hI.object, ?_⟩, ⟨hk.below, hk.started, iff_of_false hnot (by simp), hfree⟩, fun j hj => ?_⟩
  · intro m hm
    by_cases hmn : m = n
    · subst hmn
      refine ⟨?_, hstored, etag, hanswered, hentered⟩
      show w.claimedBy m ≠ none
      rw [hhand.mine]
      exact Option.some_ne_none _
    · change Function.update w.completed n true m = true at hm
      rw [Function.update_of_ne hmn] at hm
      exact hI.completed m hm
  · intro k hret
    obtain ⟨hnext, hall⟩ := hI.returned k hret
    exact ⟨hnext, fun m hm => hkept m (hall m hm)⟩
  · intro h
    change w.resolved = true at h
    rw [hresolved] at h
    cases h
  · refine ⟨fun _ => Iff.rfl, fun m hm => ⟨?_, rfl, rfl, fun _ => Iff.rfl⟩, id, Iff.rfl, id⟩
    exact Function.update_of_ne (ne_of_mine hhand.mine hm hj) _ _

theorem advances_return (hI : UploadInv plan w) (hk : Knows plan w i .finished) :
    Advances plan w { w with returned := i :: w.returned } i .gone := by
  have hverifying := unverified hI hk (by simp)
  have hresolved := (hI.object hverifying).2
  refine ⟨⟨hI.next_pos, hI.next_le, hI.claimed, hI.claimer, hI.stored, hI.urls, hI.completed, hI.entries, hI.keys, ?_, ?_,
    ?_, hI.object, ?_⟩, ⟨hk.below, hk.started, by simp, trivial⟩, fun j hj => ?_⟩
  · intro k hret
    rcases List.mem_cons.1 hret with rfl | hret
    · exact hk.started
    · exact hI.started k hret
  · intro k hret
    rcases List.mem_cons.1 hret with rfl | hret
    · exact hk.stands
    · exact hI.returned k hret
  · exact fun h => absurd hverifying h
  · intro h
    change w.resolved = true at h
    rw [hresolved] at h
    cases h
  · refine ⟨fun _ => Iff.rfl, fun m hm => ⟨rfl, rfl, rfl, fun _ => Iff.rfl⟩, id, ?_, id⟩
    show j ∈ i :: w.returned ↔ _
    simp [hj]

/-- **One step of a worker.** -/
theorem worker_act (ev : Event EngineSig) (hI : UploadInv plan w) (hk : Knows plan w i g) (hmay : g.May plan ev.op)
    (hall : w.Allowed ev) : UrlOfPart ev ∧ Advances plan w (w.apply i ev) i (g.step ev) := by
  obtain ⟨op, out, took, hok⟩ := ev
  cases op with
  | aborted => exact ⟨trivial, advances_refl hI hk⟩
  | sleep ms => exact ⟨trivial, advances_refl hI hk⟩
  | urlOf m =>
    obtain rfl : out = .ok (w.urls m) := hall
    exact ⟨urlOfPart_ok (hI.urls m), advances_refl hI hk⟩
  | awaitBatch batchIndex partNumbers =>
    refine ⟨trivial, ?_⟩
    rcases out with e | a
    · simp only [UploadState.apply]
      split_ifs
      · exact advances_urls hI hk hI.urls
      · exact advances_refl hI hk
    · simp only [UploadState.apply]
      split_ifs with hnew
      · refine advances_urls hI hk (withUrls_part ?_ hI.urls)
        rcases hmint : w.mint partNumbers with _ | minted
        · simp
        · exact mem_mint hmint
      · exact advances_refl hI hk
  | claimPart total =>
    obtain ⟨rfl, rfl⟩ := hmay
    obtain rfl : out = .ok w.nextPart := hall
    refine ⟨trivial, ?_⟩
    simp only [UploadState.apply, Grip.step]
    split_ifs with hlast
    · have hnext : w.nextPart = plan.totalParts + 1 := by
        have hle := hI.next_le
        omega
      refine ⟨hI, ⟨hk.below, hk.started, by simpa using hk.returned, hnext, hk.stands⟩, fun _ _ => ?_⟩
      exact apart_of_eq rfl rfl rfl rfl rfl rfl rfl rfl
    · exact advances_claim hI hk hlast
  | put url blob =>
    obtain ⟨rfl, rfl⟩ := hmay
    refine ⟨trivial, ?_⟩
    rcases out with e | answer
    · rcases took with _ | _
      · exact advances_refl hI hk
      · exact (advances_put hI hk rfl fun _ _ => rfl).1
    · have hpart : (StoredPart.mk (some answer.etag) (plan.slice url.partNumber)).bytes = plan.slice url.partNumber := rfl
      obtain ⟨hadvances, hknows⟩ := advances_put hI hk hpart fun m hm =>
        Function.update_of_ne hm (some answer.result) w.answered
      exact ⟨hadvances.inv, hknows answer.result (Function.update_self ..), hadvances.apart⟩
  | setEtag m etag =>
    obtain ⟨rfl, hne⟩ := hmay
    obtain rfl : out = .ok () := hall
    exact ⟨trivial, advances_setEtag hI hk hne⟩
  | completePart m bytes =>
    obtain rfl : out = .ok () := hall
    refine ⟨trivial, ?_⟩
    rcases hmay with ⟨etag, rfl⟩ | ⟨etag, rfl, hnone⟩
    · obtain ⟨hhand, hentry, hanswered, hstored⟩ := hk.stands
      refine advances_complete hI hk (by simp) hhand hanswered hstored fun e he => ?_
      obtain ⟨hsame, -⟩ : etag = e ∧ e ≠ "" := by simpa [truthy, Option.filter_eq_some_iff] using he
      rw [← hsame]
      exact hentry
    · obtain ⟨hhand, -, hanswered, hstored⟩ := hk.stands
      refine advances_complete hI hk (by simp) hhand hanswered hstored fun e he => ?_
      rw [hnone] at he
      cases he
  | workerReturned =>
    obtain rfl := hmay
    obtain rfl : out = .ok () := hall
    exact ⟨trivial, advances_return hI hk⟩
  | etagEntries => exact hmay.elim
  | server op => exact hmay.elim
  | resolved => exact hmay.elim

end Workers

/-! ## The object -/

section Object

variable {w : UploadState}

/-- The plan is the one that the server makes for the file. -/
def Planned (plan : UploadPlan) : Prop :=
  ∃ count, planMultipart plan.file.length plan.partSizeBytes = .ok (count, plan.partSizeBytes) ∧
    plan.partCount = some count

theorem planned_parts (h : Planned plan) : 0 < plan.partSizeBytes ∧
    plan.file.length ≤ plan.totalParts * plan.partSizeBytes ∧
    ∀ k, k < plan.totalParts → k * plan.partSizeBytes < plan.file.length := by
  obtain ⟨count, hcount, hplan⟩ := h
  unfold planMultipart at hcount
  split_ifs at hcount with hfile hpart
  have hceil : (plan.file.length + plan.partSizeBytes - 1) / plan.partSizeBytes = count :=
    congrArg Prod.fst (Except.ok.inj hcount)
  have hsize : 0 < plan.partSizeBytes := Nat.pos_of_ne_zero hpart
  have hlength : 0 < plan.file.length := Nat.pos_of_ne_zero hfile
  have hpos : 0 < count := by
    rw [← hceil]
    exact Nat.div_pos (by omega) hsize
  have htotal : plan.totalParts = count := by
    unfold UploadPlan.totalParts
    rw [hplan]
    exact if_pos hpos
  rw [htotal]
  refine ⟨hsize, ?_, fun k hk => ?_⟩
  · have hlt : plan.file.length + plan.partSizeBytes - 1 < (count + 1) * plan.partSizeBytes := by
      rw [← hceil]
      exact (Nat.div_lt_iff_lt_mul hsize).1 (Nat.lt_succ_self _)
    rw [Nat.succ_mul] at hlt
    omega
  · have hle : (k + 1) * plan.partSizeBytes ≤ plan.file.length + plan.partSizeBytes - 1 :=
      (Nat.le_div_iff_mul_le hsize).1 (by omega)
    rw [Nat.succ_mul] at hle
    omega

theorem slice_eq {n : ℕ} : plan.slice n = sliceAt plan.partSizeBytes plan.file (n - 1) := by
  unfold UploadPlan.slice sliceAt
  dsimp only
  rcases Nat.le_total ((n - 1) * plan.partSizeBytes + plan.partSizeBytes) plan.file.length with h | h
  · rw [Nat.min_eq_left h, Nat.add_sub_cancel_left]
  · rw [Nat.min_eq_right h, List.take_of_length_le (by simp), List.take_of_length_le]
    rw [List.length_drop]
    omega

theorem all_completed (hI : UploadInv plan w) (hdone : ∀ i, i < plan.concurrency → i ∈ w.returned) :
    ∀ n, 1 ≤ n → n ≤ plan.totalParts → w.completed n = true := by
  intro n hpos hle
  have hnext := (hI.returned 0 (hdone 0 (by unfold UploadPlan.concurrency; omega))).1
  obtain ⟨i, hi⟩ := Option.ne_none_iff_exists'.1 ((hI.claimed n).2 ⟨hpos, by omega⟩)
  exact (hI.returned i (hdone i (hI.claimer n i hi).1)).2 n hi

theorem entries_bounded (hI : UploadInv plan w) {n : ℕ} {e : String} (h : (n, e) ∈ w.etags) :
    1 ≤ n ∧ n ≤ plan.totalParts := by
  have hclaimed := (hI.claimed n).1 (hI.entries n e h).1
  have hle := hI.next_le
  omega

theorem exposed_iff (hI : UploadInv plan w) (hdone : ∀ i, i < plan.concurrency → i ∈ w.returned) {n : ℕ}
    (hpos : 1 ≤ n) (hle : n ≤ plan.totalParts) :
    (∃ etag, etag ≠ "" ∧ w.answered n = some (some etag)) ↔ n ∈ w.etags.map (·.1) := by
  constructor
  · rintro ⟨etag, hne, hetag⟩
    obtain ⟨-, -, other, hother, hentry⟩ := hI.completed n (all_completed hI hdone n hpos hle)
    obtain rfl : other = some etag := Option.some.inj (hother.symm.trans hetag)
    exact List.mem_map.2 ⟨_, hentry etag (by simp [truthy, hne]), rfl⟩
  · intro hmem
    obtain ⟨⟨m, e⟩, hentry, hm⟩ := List.mem_map.1 hmem
    obtain rfl : m = n := hm
    obtain ⟨-, hne, hetag⟩ := hI.entries m e hentry
    exact ⟨e, hne, hetag⟩

theorem assemble_slices (hI : UploadInv plan w) {parts : List (ℕ × String)} (h : w.toStoreState.Accepts parts) :
    w.toStoreState.assemble parts = (parts.map fun part => part.1 - 1).flatMap (sliceAt plan.partSizeBytes plan.file) := by
  unfold StoreState.assemble
  rw [List.flatMap_map]
  refine List.flatMap_congr fun part hpart => ?_
  obtain ⟨stored, hstored, -⟩ := h.2 part hpart
  rw [Option.mem_def.1 hstored, Option.map_some, Option.getD_some, hI.stored _ _ hstored, slice_eq]

/-- **The object** assembled from the list of the ETags. -/
theorem outcome_of_listed (hplan : Planned plan) (hI : UploadInv plan w)
    (hdone : ∀ i, i < plan.concurrency → i ∈ w.returned) {parts : List (ℕ × String)} (hperm : parts.Perm w.etags)
    (haccepted : w.toStoreState.Accepts parts) {w' : UploadState} (hanswered : w'.answered = w.answered)
    (hobject : w'.object = some (w.toStoreState.assemble parts)) (hlisted : w'.listed = some parts) :
    Outcome plan w' := by
  obtain ⟨hsize, hlength, hbelow⟩ := planned_parts hplan
  have hbounds : ∀ part ∈ parts, 1 ≤ part.1 ∧ part.1 ≤ plan.totalParts := fun part hpart =>
    entries_bounded hI (hperm.mem_iff.1 hpart)
  have hsorted : (parts.map (·.1)).Pairwise (· < ·) := List.pairwise_map.2 haccepted.1
  have hexposed : ∀ n, 1 ≤ n → n ≤ plan.totalParts →
      ((∃ etag, etag ≠ "" ∧ w'.answered n = some (some etag)) ↔ n ∈ parts.map (·.1)) := by
    intro n hpos hle
    rw [hanswered, exposed_iff hI hdone hpos hle]
    exact (hperm.map _).mem_iff.symm
  rw [Outcome, Whole, hobject, hlisted, assemble_slices hI haccepted]
  constructor
  · intro hall
    have hkeys : parts.map (·.1) = List.range' 1 plan.totalParts := by
      have hsame : (parts.map (·.1)).Perm (List.range' 1 plan.totalParts) := by
        refine (List.perm_ext_iff_of_nodup (hsorted.imp Nat.ne_of_lt) List.nodup_range').2 fun n => ?_
        rw [List.mem_range'_1]
        constructor
        · intro hn
          obtain ⟨part, hpart, rfl⟩ := List.mem_map.1 hn
          have hb := hbounds part hpart
          omega
        · rintro ⟨hpos, hlt⟩
          exact (hexposed n hpos (by omega)).1 (hall n hpos (by omega))
      exact hsame.eq_of_pairwise (fun _ _ _ _ hab hba => absurd hab (Nat.lt_asymm hba)) hsorted List.pairwise_lt_range'
    refine ⟨?_, parts, rfl, hkeys, fun part hpart => ?_⟩
    · have hnumbers : (parts.map fun part => part.1 - 1) = List.range plan.totalParts := by
        have hpred : (parts.map fun part => part.1 - 1) = (parts.map (·.1)).map (· - 1) := by rw [List.map_map]; rfl
        rw [hpred, hkeys, List.range'_eq_map_range, List.map_map]
        exact (List.map_congr_left fun k _ => Nat.add_sub_cancel_left 1 k).trans (List.map_id _)
      rw [hnumbers, slices_eq hlength]
    · rw [hanswered]
      exact (hI.entries _ _ (hperm.mem_iff.1 hpart)).2.2
  · intro hnot
    obtain ⟨n, hpos, hle, hmissing⟩ : ∃ n, 1 ≤ n ∧ n ≤ plan.totalParts ∧ n ∉ parts.map (·.1) := by
      unfold AllExposed at hnot
      push Not at hnot
      obtain ⟨n, hpos, hle, hn⟩ := hnot
      refine ⟨n, hpos, hle, fun hmem => ?_⟩
      obtain ⟨etag, hne, hetag⟩ := (hexposed n hpos hle).2 hmem
      exact hn etag hne hetag
    have hdistinct : (parts.map fun part => part.1 - 1).Nodup := by
      refine List.Pairwise.imp Nat.ne_of_lt (List.pairwise_map.2 ?_)
      refine List.Pairwise.imp_of_mem (fun ha hb hlt => ?_) haccepted.1
      have h1 := hbounds _ ha
      have h2 := hbounds _ hb
      omega
    intro heq
    refine slices_ne hlength hdistinct (fun k hk => ?_) (j := n - 1) (by omega) (fun hmem => ?_)
      (sliceAt_pos hsize (hbelow (n - 1) (by omega))) (Option.some.inj heq)
    · obtain ⟨part, hpart, rfl⟩ := List.mem_map.1 hk
      have hb := hbounds part hpart
      omega
    · obtain ⟨part, hpart, hn⟩ := List.mem_map.1 hmem
      have hb := hbounds part hpart
      exact hmissing (List.mem_map.2 ⟨part, hpart, by omega⟩)

end Object

/-! ## The list is sent -/

section Sent

variable {w : UploadState} {i : ℕ}

/-- What the thread that sends the list asks. -/
def Sends (plan : UploadPlan) (w : UploadState) : EngineOp → Prop
  | .etagEntries => True
  | .server _ => True
  | .resolved => Outcome plan w
  | _ => False

/-- Its exchanges with a world that nothing else moves any more. -/
def sendMonitor (plan : UploadPlan) (i : ℕ) : Monitor EngineSig UploadState where
  pre w op := w.resolved = false ∧ Sends plan w op
  rely w ev := w.Allowed ev
  step w ev := w.apply i ev

/-- A program of the server, carried out for the engine. -/
theorem wp_onServer {α : Type} {Q : α → StoreState → Prop} {p : Proc JobSig α} (hresolved : w.resolved = false)
    (h : wp serverAlone p Q w.toStoreState) :
    wp (sendMonitor plan i) (p.subst onServer) (fun a w' => ∃ s, Q a s ∧ w' = { w with toStoreState := s }) w := by
  induction p generalizing w with
  | ret a => exact ⟨w.toStoreState, h, rfl⟩
  | call op k ih =>
    obtain ⟨⟨op, rfl⟩, hout⟩ := h
    refine wp_bind.2 ?_
    have hpass : ∀ (out : Except PyError op.Ans) (answer : Except EngineError op.Ans) took hk hk',
        (∀ a, answer = .ok a → out = .ok a) → (∀ e, answer = .error e → out = .error e.toPy) →
        w.Allowed ⟨.server op, answer, took, hk'⟩ →
        w.toStoreState.Permits (⟨op, out, took, hk⟩ : Event (UploadSig PyError)) ∧
          w.apply i ⟨.server op, answer, took, hk'⟩ =
            { w with toStoreState := w.toStoreState.serve (⟨op, out, took, hk⟩ : Event (UploadSig PyError)) } := by
      intro out answer took hk hk' hok herr hallowed
      rcases answer with e | a
      · obtain rfl := herr e rfl
        cases op <;> cases took <;> exact ⟨hallowed, rfl⟩
      · obtain rfl := hok a rfl
        obtain rfl := hk a rfl
        cases op <;> exact ⟨hallowed, rfl⟩
    have hgo : ∀ (out : Except PyError op.Ans) took hk,
        w.toStoreState.Permits (⟨op, out, took, hk⟩ : Event (UploadSig PyError)) →
        wp (sendMonitor plan i) ((k out).subst onServer) (fun a w' => ∃ s, Q a s ∧ w' = { w with toStoreState := s })
          { w with toStoreState := w.toStoreState.serve (⟨op, out, took, hk⟩ : Event (UploadSig PyError)) } := by
      intro out took hk hpermits
      refine ih out (w := { w with toStoreState := w.toStoreState.serve _ }) hresolved ?_
      refine hout out took hk fun up hup => ?_
      obtain rfl := Option.some.inj hup
      exact hpermits
    refine ⟨⟨hresolved, trivial⟩, fun answer took hk' hallowed => ?_⟩
    rcases answer with e | a
    · obtain ⟨hpermits, hmoved⟩ := hpass (.error e.toPy) (.error e) took (fun _ h => by cases h) hk'
        (fun _ h => by cases h) (fun _ h => by rw [Except.error.inj h]) hallowed
      have hrest := hgo (.error e.toPy) took _ hpermits
      rw [← hmoved] at hrest
      exact hrest
    · obtain ⟨hpermits, hmoved⟩ := hpass (.ok a) (.ok a) took (fun _ _ => hk' a rfl) hk' (fun _ h => by rw [Except.ok.inj h])
        (fun _ h => by cases h) hallowed
      have hrest := hgo (.ok a) took (fun _ _ => hk' a rfl) hpermits
      rw [← hmoved] at hrest
      exact hrest

theorem byNumber_perm {parts : List (ℕ × String)} : (byNumber (parts.insertionSort fun a b => a.1 ≤ b.1)).Perm parts :=
  (List.mergeSort_perm _ _).trans (List.perm_insertionSort _ _)

/-- **The thread that sends the list** ends well only with the outcome of the list. -/
theorem wp_verifyParts (hplan : Planned plan) (hI : UploadInv plan w) (hdone : ∀ i, i < plan.concurrency → i ∈ w.returned)
    (hobject : w.object = none) (hresolved : w.resolved = false) :
    wp (sendMonitor plan i) (Lib.thread (verifyParts plan)) (fun _ _ => True) w := by
  refine wp_thread_of_wpe (R := fun _ => True) ?_
  unfold verifyParts
  rw [wpe_bind]
  refine wpe_ask.2 ⟨⟨hresolved, trivial⟩, fun entries hentries => ?_, fun _ _ _ _ => trivial⟩
  obtain rfl : entries = w.etags := Except.ok.inj hentries
  rw [wpe_bind]
  unfold verifyUpload
  rw [wpe_mapError]
  let sorted := w.etags.insertionSort fun a b => a.1 ≤ b.1
  have hverify : wpe serverAlone (verifyUploadCompletion plan.uploadId sorted) _ _ w.toStoreState := verify_assembles hobject
  refine wp_mono ?_ (wp_onServer (w := w) hresolved hverify)
  rintro (e | session) w' ⟨s, hs, rfl⟩
  · trivial
  · obtain ⟨haccepted, hassembled, hlisted⟩ := hs
    refine wpe_ask.2 ⟨⟨hresolved, ?_⟩, fun _ _ => trivial, fun _ _ _ _ => trivial⟩
    exact outcome_of_listed hplan hI hdone byNumber_perm haccepted rfl hassembled hlisted

/-- What the exchanges of this thread leave alone. -/
structure Settled (w w' : UploadState) : Prop where
  claimedBy : w'.claimedBy = w.claimedBy
  completed : w'.completed = w.completed
  answered : w'.answered = w.answered
  stored : w'.stored = w.stored
  urls : w'.urls = w.urls
  etags : w'.etags = w.etags
  started : w'.started = w.started
  returned : w'.returned = w.returned
  next : w'.nextPart = w.nextPart
  verifying : w'.verifying = w.verifying

theorem serve_stored {s : StoreState} {ε : Type} {ev : Event (UploadSig ε)} : (s.serve ev).stored = s.stored := by
  unfold StoreState.serve
  split <;> rfl

theorem settled_of_sends {ev : Event EngineSig} (hsends : Sends plan w ev.op) : Settled w (w.apply i ev) := by
  obtain ⟨op, out, took, hk⟩ := ev
  cases op with
  | etagEntries => exact ⟨rfl, rfl, rfl, rfl, rfl, rfl, rfl, rfl, rfl, rfl⟩
  | server op => exact ⟨rfl, rfl, rfl, serve_stored, rfl, rfl, rfl, rfl, rfl, rfl⟩
  | resolved => rcases out with _ | _ <;> exact ⟨rfl, rfl, rfl, rfl, rfl, rfl, rfl, rfl, rfl, rfl⟩
  | _ => exact hsends.elim

theorem apart_of_settled {w' : UploadState} {j : ℕ} (h : Settled w w') : Apart plan w w' j :=
  apart_of_eq h.claimedBy h.completed h.answered h.stored h.etags h.started h.returned h.next

theorem inv_of_settled {w' : UploadState} (hI : UploadInv plan w) (hverifying : w.verifying ≠ none)
    (h : Settled w w') (houtcome : w'.resolved = true → Outcome plan w') : UploadInv plan w' := by
  obtain ⟨hclaimed, hcompleted, hanswered, hstored, hurls, hetags, hstarted, hreturned, hnext, hsame⟩ := h
  refine ⟨?_, ?_, ?_, ?_, ?_, ?_, ?_, ?_, ?_, ?_, ?_, ?_, fun hnone => ?_, houtcome⟩
  · rw [hnext]
    exact hI.next_pos
  · rw [hnext]
    exact hI.next_le
  · rw [hnext, hclaimed]
    exact hI.claimed
  · rw [hclaimed, hstarted]
    exact hI.claimer
  · rw [hstored]
    exact hI.stored
  · rw [hurls]
    exact hI.urls
  · rw [hcompleted, hclaimed, hstored, hanswered, hetags]
    exact hI.completed
  · rw [hetags, hclaimed, hanswered]
    exact hI.entries
  · rw [hetags]
    exact hI.keys
  · rw [hstarted, hreturned]
    exact hI.started
  · rw [hreturned, hnext, hclaimed, hcompleted]
    exact hI.returned
  · rw [hsame, hreturned]
    exact hI.verifying
  · rw [hsame] at hnone
    exact absurd hnone hverifying

/-- **One step of the thread that sends the list.** -/
theorem sends_act {ev : Event EngineSig} (hI : UploadInv plan w) (hverifying : w.verifying ≠ none)
    (hresolved : w.resolved = false) (hsends : Sends plan w ev.op) : UploadInv plan (w.apply i ev) := by
  refine inv_of_settled hI hverifying (settled_of_sends hsends) ?_
  have hnot : ¬ w.resolved = true := by simp [hresolved]
  obtain ⟨op, out, took, hk⟩ := ev
  cases op with
  | etagEntries => exact fun h => absurd h hnot
  | server op => exact fun h => absurd h hnot
  | resolved =>
    rcases out with e | a
    · exact fun h => absurd h hnot
    · exact fun _ => hsends
  | _ => exact hsends.elim

end Sent

/-! ## The whole upload -/

section Whole

variable {w w' : UploadState} {i j : ℕ}

/-- What holds of each thread. -/
def Doing (plan : UploadPlan) (w : UploadState) (i : ℕ) : UploadThread → Proc EngineSig Unit → Prop
  | .worker, p => ∃ g, Knows plan w i g ∧ wp (workerMonitor plan) p (fun _ _ => True) g
  | .verify, p => w.verifying = some i ∧ wp (sendMonitor plan i) p (fun _ _ => True) w

theorem not_gone {g : Grip} {op : EngineOp} (h : g.May plan op) : g ≠ .gone := by
  rintro rfl
  cases op <;> simp [Grip.May] at h

theorem apart_start : Apart plan w { w with started := i :: w.started } j :=
  ⟨fun _ => Iff.rfl, fun _ _ => ⟨rfl, rfl, rfl, fun _ => Iff.rfl⟩, List.mem_cons_of_mem _, Iff.rfl, id⟩

theorem apart_verify : Apart plan w { w with verifying := some i } j := apart_of_eq rfl rfl rfl rfl rfl rfl rfl rfl

theorem inv_start (hI : UploadInv plan w) : UploadInv plan { w with started := i :: w.started } :=
  ⟨hI.next_pos, hI.next_le, hI.claimed,
    fun n j hj => ⟨(hI.claimer n j hj).1, List.mem_cons_of_mem _ (hI.claimer n j hj).2⟩, hI.stored, hI.urls,
    hI.completed, hI.entries, hI.keys, fun j hj => List.mem_cons_of_mem _ (hI.started j hj), hI.returned, hI.verifying,
    hI.object, hI.outcome⟩

theorem inv_verify (hI : UploadInv plan w) (hdone : ∀ i, i < plan.concurrency → i ∈ w.returned) :
    UploadInv plan { w with verifying := some i } :=
  ⟨hI.next_pos, hI.next_le, hI.claimed, hI.claimer, hI.stored, hI.urls, hI.completed, hI.entries, hI.keys, hI.started,
    hI.returned, fun _ => hdone, fun h => absurd h (by simp), hI.outcome⟩

theorem knows_start (hI : UploadInv plan w) (hbelow : i < plan.concurrency) (hnew : i ∉ w.started) :
    Knows plan { w with started := i :: w.started } i .free := by
  refine ⟨hbelow, List.mem_cons_self, iff_of_false (fun h => hnew (hI.started i h)) (by simp), fun n hn => ?_⟩
  exact absurd (hI.claimer n i hn).2 hnew

/-- The moves of every thread keep what is shared in order. -/
theorem preserved_upload (hplan : Planned plan) :
    (uploadEngine plan).Preserved (UploadInv plan) (Doing plan) (fun _ _ _ _ => True) where
  start_world {w w' i thread p} hI hspawn := by
    rcases thread with _ | _
    · obtain ⟨-, -, rfl, -⟩ := hspawn
      exact inv_start hI
    · obtain ⟨hdone, -, rfl, -⟩ := hspawn
      exact inv_verify hI hdone
  start_thread {w w' i thread p} hI hspawn := by
    rcases thread with _ | _
    · obtain ⟨hbelow, hnew, rfl, rounds, rfl⟩ := hspawn
      exact ⟨.free, knows_start hI hbelow hnew, wp_workerThread⟩
    · obtain ⟨hdone, hnone, rfl, rfl⟩ := hspawn
      obtain ⟨hobject, hresolved⟩ := hI.object hnone
      exact ⟨rfl, wp_verifyParts hplan (inv_verify hI hdone) hdone hobject hresolved⟩
  start_other {w w' i thread p} hI hspawn {j thread' q} hne hT := by
    rcases thread with _ | _
    · obtain ⟨hbelow, hnew, rfl, -⟩ := hspawn
      rcases thread' with _ | _
      · obtain ⟨g, hk, hwp⟩ := hT
        exact ⟨g, knows_apart apart_start hk, hwp⟩
      · have hverifying : w.verifying ≠ none := by simp [hT.1]
        exact absurd (hI.started i (hI.verifying hverifying i hbelow)) hnew
    · obtain ⟨-, hnone, rfl, -⟩ := hspawn
      rcases thread' with _ | _
      · obtain ⟨g, hk, hwp⟩ := hT
        exact ⟨g, knows_apart apart_verify hk, hwp⟩
      · exact absurd (hT.1.symm.trans hnone) (by simp)
  act_world {c i thread op k out took h} hI hT hall _ := by
    rcases thread with _ | _
    · obtain ⟨g, hk, hmay, -⟩ := hT
      exact (worker_act ⟨op, out, took, h⟩ hI hk hmay hall).2.inv
    · obtain ⟨hverifying, ⟨hresolved, hsends⟩, -⟩ := hT
      exact sends_act hI (by simp [hverifying]) hresolved hsends
  act_thread {c i thread op k out took h} hI hT hall _ := by
    rcases thread with _ | _
    · obtain ⟨g, hk, hmay, hout⟩ := hT
      obtain ⟨hurl, hadvances⟩ := worker_act ⟨op, out, took, h⟩ hI hk hmay hall
      exact ⟨_, hadvances.knows, hout out took h hurl⟩
    · obtain ⟨hverifying, ⟨-, hsends⟩, hout⟩ := hT
      exact ⟨(settled_of_sends hsends).verifying.trans hverifying, hout out took h hall⟩
  act_other {c i thread op k out took h} hI hT hall _ {j thread' q} hne hrun hT' := by
    rcases thread with _ | _
    · obtain ⟨g, hk, hmay, -⟩ := hT
      rcases thread' with _ | _
      · obtain ⟨g', hk', hwp⟩ := hT'
        exact ⟨g', knows_apart ((worker_act ⟨op, out, took, h⟩ hI hk hmay hall).2.apart j hne) hk', hwp⟩
      · exact absurd (hT'.1.symm.trans (unverified hI hk (not_gone hmay))) (by simp)
    · obtain ⟨hverifying, ⟨-, hsends⟩, -⟩ := hT
      rcases thread' with _ | _
      · obtain ⟨g', hk', hwp⟩ := hT'
        exact ⟨g', knows_apart (apart_of_settled (settled_of_sends hsends)) hk', hwp⟩
      · exact absurd (Option.some.inj (hT'.1.symm.trans hverifying)) hne

theorem inv_opened {session : PlannedSession} : (uploadEngine plan).Inv (UploadInv plan) (Doing plan)
    (opened plan session) := by
  refine ⟨⟨Nat.le_refl 1, Nat.le_add_left 1 _, fun n => ?_, ?_, ?_, ?_, ?_, ?_, ?_, ?_, ?_, ?_, ?_, ?_⟩, ?_⟩
  · refine iff_of_false (fun h => h rfl) ?_
    rintro ⟨hpos, hlt⟩
    change n < 1 at hlt
    omega
  all_goals simp [opened]

/-- **The stored object** of an upload that ends well is its file, from all of its parts, exactly if the browser could
read the ETag of every part.  **A verify call** refuses, of the lists that are not exactly the parts, the empty one and
those that the store does not accept. -/
theorem upload_whole_iff {plan : UploadPlan} (hplan : Planned plan) {session : PlannedSession}
    {tr : List ((uploadEngine plan).Label × (uploadEngine plan).Config)}
    (hs : (uploadEngine plan).Steps (opened plan session) tr) :
    ((lastConfig (opened plan session) tr).world.resolved = true →
      (Whole plan (lastConfig (opened plan session) tr).world ↔ AllExposed plan (lastConfig (opened plan session) tr).world)) ∧
    ∀ (s : StoreState) (uploadId : String) (partCount : ℕ) (parts : List (ℕ × String)), Open s uploadId partCount →
      ((¬ Exactly partCount parts → Refused s uploadId parts) ↔
        Exactly partCount parts ∨ parts = [] ∨ ¬ s.Accepts (byNumber parts)) := by
  constructor
  · have htrue : Along (ActOnly fun (_ : (uploadEngine plan).Config) _ _ _ => True) (opened plan session) tr := by
      refine along_mono (fun c l c' _ => ?_) hs
      cases l <;> trivial
    have hinv : ∀ c l c', (uploadEngine plan).Inv (UploadInv plan) (Doing plan) c → (uploadEngine plan).Step c l c' →
        ActOnly (fun _ _ _ _ => True) c l c' → (uploadEngine plan).Inv (UploadInv plan) (Doing plan) c' :=
      fun c l c' hI hst hl => inv_step (preserved_upload hplan) hI hst hl
    intro hresolved
    obtain ⟨hwhole, hnot⟩ := (last_of_step hinv inv_opened hs htrue).1.outcome hresolved
    refine ⟨fun h => ?_, hwhole⟩
    by_contra hexposed
    exact hnot hexposed h.1
  · intro s uploadId partCount parts hopen
    rw [verify_refused_iff hopen]
    constructor
    · intro h
      by_cases hexactly : Exactly partCount parts
      · exact .inl hexactly
      · exact .inr (h hexactly)
    · rintro (hexactly | hrefused) hnot
      · exact absurd hexactly hnot
      · exact hrefused

end Whole

/-! ## Concrete runs -/

section Concrete

def storeReply (s : StoreState) : (op : UploadOp) → Except EngineError op.Ans
  | .getSession uploadId => .ok ((s.session.filter (·.uploadId = uploadId)).map (·.toUploadSession))
  | .objectExists _ => .ok s.object.isSome
  | .completeUpload _ _ => .ok ""
  | .setSession _ => .ok ()
  | .completeMultipartUpload _ _ _ => .ok ()

/-- Every PUT succeeds; `exposed` tells which ETags the browser may read. -/
def engineReply (exposed : ℕ → Bool) (w : UploadState) : (op : EngineOp) → Except EngineError op.Ans
  | .aborted => .ok false
  | .claimPart _ => .ok w.nextPart
  | .urlOf partNumber => .ok (w.urls partNumber)
  | .awaitBatch _ _ => .ok ()
  | .put url _ => .ok ⟨if url.partNumber = 1 then "e1" else "e2", exposed url.partNumber⟩
  | .sleep _ => .ok ()
  | .setEtag _ _ => .ok ()
  | .completePart _ _ => .ok ()
  | .workerReturned => .ok ()
  | .etagEntries => .ok w.etags
  | .server op => storeReply w.toStoreState op
  | .resolved => .ok ()

instance decidableAccepts (s : StoreState) (parts : List (ℕ × String)) : Decidable (s.Accepts parts) :=
  inferInstanceAs (Decidable (_ ∧ _))

instance decidableAllowed (w : UploadState) (ev : Event EngineSig) : Decidable (w.Allowed ev) := by
  unfold UploadState.Allowed StoreState.Permits
  repeat' split
  all_goals infer_instance

def uploadDriver (plan : UploadPlan) (exposed : ℕ → Bool) : (uploadEngine plan).Driver where
  reply w := engineReply exposed w
  check w _ _ ev := @decide _ (decidableAllowed w ev)
  sound {w _ _ ev} h := @of_decide_eq_true _ (decidableAllowed w ev) h

def twoParts : UploadPlan := { file := [1, 2, 3], uploadId := "u1", partSizeBytes := 2, partCount := some 2, delays := [] }

def twoPartSession : PlannedSession :=
  { uploadId := "u1", objectKey := "uploads/u1", uploadMode := "multipart", multipartUploadId := some "m1",
    partSizeBytes := some 2, partCount := some 2 }

theorem twoParts_planned : Planned twoParts := ⟨2, rfl, rfl⟩

def workerStarter (i : ℕ) : (uploadEngine twoParts).Starter i where
  start w := if i < twoParts.concurrency ∧ i ∉ w.started then
    some (.worker, Lib.thread (workerThread twoParts 3), { w with started := i :: w.started }) else none
  sound {w tag p w'} h := by
    split_ifs at h with hnew
    cases h
    exact ⟨hnew.1, hnew.2, rfl, 3, rfl⟩

abbrev UploadMoves : Type := List (uploadEngine twoParts).Move

/-- Both workers claim their part, and the second is done first. -/
def bothUploaded (both : Bool) : List ((uploadEngine twoParts).Label × (uploadEngine twoParts).Config) :=
  Sys.drive (uploadDriver twoParts fun partNumber => both || partNumber = 1) (opened twoParts twoPartSession)
    (([.start 0 (workerStarter 0), .start 1 (workerStarter 1), .go 0, .go 0, .go 0, .go 0, .go 1, .go 1, .go 1, .go 1,
      .go 1] : UploadMoves) ++ ((if both then [.go 1] else []) : UploadMoves) ++
      ([.go 1, .go 1, .go 1, .go 1, .go 0, .go 0, .go 0, .go 0, .go 0, .go 0, .go 0, .go 0] : UploadMoves))

def enteredParts : Bool → List (ℕ × String)
  | true => [(2, "e2"), (1, "e1")]
  | false => [(1, "e1")]

def listedParts : Bool → List (ℕ × String)
  | true => [(1, "e1"), (2, "e2")]
  | false => [(1, "e1")]

theorem byNumber_entered (both : Bool) :
    byNumber ((enteredParts both).insertionSort fun a b => a.1 ≤ b.1) = listedParts both := by
  cases both
  · exact List.mergeSort_of_pairwise (l := [(1, "e1")]) (by simp)
  · exact List.mergeSort_of_pairwise (l := [(1, "e1"), (2, "e2")]) (by simp)

/-- The list of the ETags is about to be sent. -/
structure Ready (both : Bool) (c : (uploadEngine twoParts).Config) : Prop where
  free : (c.threads 2).isNone = true
  returned : ∀ j ∈ List.range twoParts.concurrency, j ∈ c.world.returned
  verifying : c.world.verifying = none
  session : c.world.session.map (·.toUploadSession) = some twoPartSession.toUploadSession
  etags : c.world.etags = enteredParts both
  answered : ∀ part ∈ listedParts both, c.world.answered part.1 = some (some part.2)
  accepted : c.world.toStoreState.Accepts (listedParts both)

theorem ready_bothUploaded (both : Bool) :
    Ready both (lastConfig (opened twoParts twoPartSession) (bothUploaded both)) where
  free := by cases both <;> decide +kernel
  returned := by cases both <;> decide +kernel
  verifying := by cases both <;> decide +kernel
  session := by cases both <;> decide +kernel
  etags := by cases both <;> decide +kernel
  answered := by cases both <;> decide +kernel
  accepted := by cases both <;> decide +kernel

theorem list_sent {both : Bool} {c : (uploadEngine twoParts).Config} (h : Ready both c) :
    ∃ tr, (uploadEngine twoParts).Steps c tr ∧ (lastConfig c tr).world.resolved = true ∧
      (lastConfig c tr).world.answered = c.world.answered ∧ (lastConfig c tr).world.listed = some (listedParts both) := by
  have hstart : (uploadEngine twoParts).Step c (.start 2 UploadThread.verify) _ :=
    .start (Option.isNone_iff_eq_none.1 h.free) ⟨fun j hj => h.returned j (List.mem_range.2 hj), h.verifying, rfl, rfl⟩
  have hfound : some twoPartSession.toUploadSession =
      (c.world.session.filter (·.uploadId = "u1")).map (·.toUploadSession) := by
    obtain ⟨planned, hplanned, hsame⟩ := Option.map_eq_some_iff.1 h.session
    rw [hplanned, Option.filter_some, hsame]
    exact congrArg some hsame.symm
  have haccepted := h.accepted
  have hetags := h.etags.symm
  rw [← byNumber_entered] at haccepted ⊢
  cases both
  all_goals
    exact ⟨[(_, _), (_, _), (_, _), (_, _), (_, _), (_, _), (_, _)], ⟨hstart,
      step_ok (Function.update_self ..) (enteredParts _) (by exact congrArg _ hetags),
      step_ok (Function.update_self ..) (some twoPartSession.toUploadSession) (by exact hfound),
      step_ok (Function.update_self ..) () (by exact fun _ => haccepted),
      step_ok (Function.update_self ..) true (by exact rfl),
      step_ok (Function.update_self ..) () (by exact trivial),
      step_ok (Function.update_self ..) () (by exact trivial), trivial⟩, rfl, rfl, rfl⟩

theorem twoParts_resolved (both : Bool) : ∃ tr, (uploadEngine twoParts).Steps (opened twoParts twoPartSession) tr ∧
    (lastConfig (opened twoParts twoPartSession) tr).world.resolved = true ∧
    (∀ part ∈ listedParts both,
      (lastConfig (opened twoParts twoPartSession) tr).world.answered part.1 = some (some part.2)) ∧
    (lastConfig (opened twoParts twoPartSession) tr).world.listed = some (listedParts both) := by
  have hready := ready_bothUploaded both
  obtain ⟨tr, hs, hresolved, hanswered, hlisted⟩ := list_sent hready
  refine ⟨bothUploaded both ++ tr, along_append (steps_drive _ _ _) hs, ?_⟩
  rw [lastConfig_append, hanswered]
  exact ⟨hresolved, hready.answered, hlisted⟩

theorem upload_whole_iff_twoParts : ∃ tr, (uploadEngine twoParts).Steps (opened twoParts twoPartSession) tr ∧
    (lastConfig (opened twoParts twoPartSession) tr).world.object = some [1, 2, 3] := by
  obtain ⟨tr, hs, hresolved, hanswered, -⟩ := twoParts_resolved true
  refine ⟨tr, hs, (((upload_whole_iff twoParts_planned hs).1 hresolved).2 fun n hpos hle => ?_).1⟩
  have hn : n = 1 ∨ n = 2 := by
    change n ≤ 2 at hle
    omega
  rcases hn with rfl | rfl
  · exact ⟨"e1", by simp, hanswered (1, "e1") (by simp [listedParts])⟩
  · exact ⟨"e2", by simp, hanswered (2, "e2") (by simp [listedParts])⟩

def firstStored : StoreState :=
  { session := some twoPartSession, stored := fun n => if n = 1 then some ⟨some "e1", [1, 2]⟩ else none }

/-- Where the ETag of the second part cannot be read, the upload ends well without it: the list that leaves it out is
not refused. -/
theorem second_part_missing :
    (¬ ∀ (plan : UploadPlan) (session : PlannedSession)
      (tr : List ((uploadEngine plan).Label × (uploadEngine plan).Config)), Planned plan →
      (uploadEngine plan).Steps (opened plan session) tr → (lastConfig (opened plan session) tr).world.resolved = true →
      Whole plan (lastConfig (opened plan session) tr).world) ∧
    ¬ ∀ (s : StoreState) (uploadId : String) (partCount : ℕ) (parts : List (ℕ × String)), Open s uploadId partCount →
      ¬ Exactly partCount parts → Refused s uploadId parts := by
  constructor
  · intro h
    obtain ⟨tr, hs, hresolved, -, hlisted⟩ := twoParts_resolved false
    obtain ⟨-, listed, hlisted', hnumbers, -⟩ := h twoParts twoPartSession tr twoParts_planned hs hresolved
    obtain rfl := Option.some.inj (hlisted.symm.trans hlisted')
    exact absurd hnumbers (by decide)
  · intro h
    have hopen : Open firstStored "u1" 2 := ⟨twoPartSession, rfl, rfl, rfl, by decide, rfl⟩
    rcases (verify_refused_iff hopen).1 (h firstStored "u1" 2 [(1, "e1")] hopen (by unfold Exactly; decide)) with hnil | hnot
    · cases hnil
    · refine hnot ?_
      have hsorted : byNumber [(1, "e1")] = [(1, "e1")] := List.mergeSort_of_pairwise (by simp)
      rw [hsorted]
      decide

end Concrete

end Transform.Web
