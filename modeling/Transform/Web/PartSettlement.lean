import Mathlib.Data.List.Basic
import Mathlib.Tactic.SplitIfs
import Transform.Web.PartWorkers

/-!
# Web.PartSettlement — what the workers do once the upload is settled

`Promise.all` rejects with the first worker that fails and stops none of the others: those in a PUT, in a sleep or at a URL
go on after the upload has rejected, unless its signal is aborted.

* `PartsRun.Inv`: the claims, the requests for batches, and who waits for them; every step keeps it (`inv_partsStep`).
* `parts_settle_iff`: the uploads that keep within their bounds and call nothing once they are settled.
-/

namespace Transform.Web

open Lib Conversions

/-! ## What every step keeps -/

section Steps

variable {plan : UploadPlan} {s s' : PartsRun} {i partNumber attempt batchIndex : ℕ} {worker next : PartWorker}

def PartsRun.Awaited (s : PartsRun) (plan : UploadPlan) (batchIndex : ℕ) : Prop :=
  ∃ partNumber, PartWorker.waiting partNumber false ∈ s.workers ∧ plan.batchIndex partNumber = batchIndex

/-- What holds of the claims and the requests; `own` is where the worker goes that takes its turn. -/
structure PartsRun.Shared (s : PartsRun) (plan : UploadPlan) (own : Option PartWorker) : Prop where
  claimed : ∀ claim ∈ s.claims, claim.1 < s.nextPart
  claimedOnce : (s.claims.map (·.1)).Nodup
  minted : ∀ batchIndex ∈ mintedBatches s.calls, s.batchRequests batchIndex ≠ none
  mintedOnce : (mintedBatches s.calls).Nodup
  awaited : ∀ batchIndex, s.batchRequests batchIndex = some .pending → s.Awaited plan batchIndex ∨
    ∃ partNumber, own = some (.waiting partNumber false) ∧ plan.batchIndex partNumber = batchIndex

structure PartsRun.Inv (s : PartsRun) (plan : UploadPlan) : Prop extends s.Shared plan none where
  pool : s.workers.length ≤ plan.concurrency
  empty : s.stage = .creating → s.workers = []
  ended : s.stage = .verifying → ∀ worker ∈ s.workers, worker = .returned

@[simp] theorem mintedBatches_mint {numbers : List ℕ} {calls : List RunCall} :
    mintedBatches (.mint batchIndex numbers :: calls) = batchIndex :: mintedBatches calls := rfl

/-- What `mintUrl` changes: nothing, or it asks for a batch that nobody asked for. -/
theorem mintUrl_cases (s : PartsRun) (plan : UploadPlan) (partNumber : ℕ) :
    (s.mintUrl plan partNumber).1 = s ∨ ((s.mintUrl plan partNumber).2 = false ∧
      s.batchRequests (plan.batchIndex partNumber) = none ∧
      (s.mintUrl plan partNumber).1 = { s with
        batchRequests := Function.update s.batchRequests (plan.batchIndex partNumber) (some .pending)
        calls := .mint (plan.batchIndex partNumber) (plan.batchNumbers (plan.batchIndex partNumber)) :: s.calls }) := by
  unfold PartsRun.mintUrl
  split_ifs
  · exact Or.inl rfl
  · split
    · exact Or.inl rfl
    · rename_i hnone
      exact Or.inr ⟨rfl, hnone, rfl⟩

/-- A turn of the loop keeps what is shared, with the worker that takes it. -/
theorem shared_claim (h : s.Shared plan none) (i : ℕ) : (s.claim plan i).1.Shared plan (some (s.claim plan i).2) := by
  have hweak : ∀ own, s.Shared plan own := fun own =>
    ⟨h.claimed, h.claimedOnce, h.minted, h.mintedOnce, fun b hb => Or.inl ((h.awaited b hb).resolve_right nofun)⟩
  unfold PartsRun.claim
  split_ifs with haborted hlast
  · exact hweak _
  · exact hweak _
  · obtain ⟨t, ht⟩ : ∃ t : PartsRun, { s with nextPart := s.nextPart + 1, claims := (s.nextPart, i) :: s.claims } = t :=
      ⟨_, rfl⟩
    have htshared : t.Shared plan none := by
      rw [← ht]
      refine ⟨?_, ?_, h.minted, h.mintedOnce, h.awaited⟩
      · intro claim hclaim
        rcases List.mem_cons.mp hclaim with rfl | hclaim
        · exact Nat.lt_succ_self _
        · exact Nat.lt_succ_of_lt (h.claimed claim hclaim)
      · refine List.nodup_cons.mpr ⟨?_, h.claimedOnce⟩
        intro hmem
        obtain ⟨claim, hclaim, heq⟩ := List.mem_map.mp hmem
        have heq : claim.1 = s.nextPart := heq
        have hlt := h.claimed claim hclaim
        omega
    rw [ht]
    dsimp only
    rcases mintUrl_cases t plan s.nextPart with hsame | ⟨hcached, hnone, hnew⟩
    · rw [hsame]
      exact ⟨htshared.claimed, htshared.claimedOnce, htshared.minted, htshared.mintedOnce,
        fun b hb => Or.inl ((htshared.awaited b hb).resolve_right nofun)⟩
    · rw [hcached, hnew]
      refine ⟨htshared.claimed, htshared.claimedOnce, ?_, ?_, ?_⟩
      · intro b hb
        rw [mintedBatches_mint] at hb
        show Function.update t.batchRequests _ _ b ≠ none
        rw [Function.update_apply]
        split_ifs with hbatch
        · exact Option.some_ne_none _
        · exact htshared.minted b ((List.mem_cons.mp hb).resolve_left hbatch)
      · rw [mintedBatches_mint]
        exact List.nodup_cons.mpr ⟨fun hmem => htshared.minted _ hmem hnone, htshared.mintedOnce⟩
      · intro b hb
        have hb : Function.update t.batchRequests (plan.batchIndex s.nextPart) (some .pending) b = some .pending := hb
        rw [Function.update_apply] at hb
        split_ifs at hb with hbatch
        · exact Or.inr ⟨s.nextPart, rfl, hbatch.symm⟩
        · exact Or.inl ((htshared.awaited b hb).resolve_right nofun)

/-- What is shared does not say who reports or PUTs. -/
theorem PartsRun.Shared.congr {own : Option PartWorker} (h : s.Shared plan own) (hclaims : s'.claims = s.claims)
    (hnext : s'.nextPart = s.nextPart) (hcalls : mintedBatches s'.calls = mintedBatches s.calls)
    (hbatches : s'.batchRequests = s.batchRequests) (hworkers : s'.workers = s.workers) : s'.Shared plan own := by
  refine ⟨?_, ?_, ?_, ?_, ?_⟩
  · rw [hclaims, hnext]
    exact h.claimed
  · rw [hclaims]
    exact h.claimedOnce
  · rw [hcalls, hbatches]
    exact h.minted
  · rw [hcalls]
    exact h.mintedOnce
  · unfold PartsRun.Awaited
    rw [hbatches, hworkers]
    exact h.awaited

theorem shared_setWorker (h : s.Shared plan (some next)) (hworker : s.workers[i]? = some worker)
    (hnot : ∀ p, worker = .waiting p false → s.batchRequests (plan.batchIndex p) ≠ some .pending) :
    (s.setWorker i next).Shared plan none := by
  obtain ⟨hi, -⟩ := List.getElem?_eq_some_iff.mp hworker
  refine ⟨h.claimed, h.claimedOnce, h.minted, h.mintedOnce, ?_⟩
  intro b hb
  refine Or.inl ?_
  rcases h.awaited b hb with ⟨p, hp, hbatch⟩ | ⟨p, hnext, hbatch⟩
  · refine ⟨p, ?_, hbatch⟩
    obtain ⟨j, hgetj⟩ := List.mem_iff_getElem?.mp hp
    have hne : i ≠ j := by
      rintro rfl
      have hb : s.batchRequests b = some .pending := hb
      refine hnot p (Option.some.inj (hworker.symm.trans hgetj)) ?_
      rw [hbatch]
      exact hb
    have hkept : (s.workers.set i next)[j]? = s.workers[j]? := List.getElem?_set_ne hne
    exact List.mem_iff_getElem?.mpr ⟨j, hkept.trans hgetj⟩
  · cases hnext
    exact ⟨p, List.mem_set hi _, hbatch⟩

theorem shared_own (h : s.Shared plan none) (own : Option PartWorker) : s.Shared plan own :=
  ⟨h.claimed, h.claimedOnce, h.minted, h.mintedOnce, fun b hb => Or.inl ((h.awaited b hb).resolve_right nofun)⟩

theorem shared_attemptPut (h : s.Shared plan none) (hworker : s.workers[i]? = some worker)
    (hnot : ∀ p, worker = .waiting p false → s.batchRequests (plan.batchIndex p) ≠ some .pending) :
    (s.attemptPut plan i partNumber attempt).Shared plan none := by
  unfold PartsRun.attemptPut
  split_ifs
  · exact shared_setWorker (shared_own h _) hworker hnot
  · have hloaded : (s.onLoaded plan partNumber 0).Shared plan none := h.congr rfl rfl rfl rfl rfl
    have hplaced := shared_setWorker (shared_own hloaded (some (.putting partNumber attempt))) hworker hnot
    exact hplaced.congr rfl rfl rfl rfl rfl

theorem claim_frame (s : PartsRun) (plan : UploadPlan) (i : ℕ) : (s.claim plan i).1.workers = s.workers ∧
    (s.claim plan i).1.stage = s.stage ∧ (s.claim plan i).2.isPutting = false := by
  unfold PartsRun.claim
  split_ifs
  · exact ⟨rfl, rfl, rfl⟩
  · exact ⟨rfl, rfl, rfl⟩
  · dsimp only
    rcases mintUrl_cases { s with nextPart := s.nextPart + 1, claims := (s.nextPart, i) :: s.claims } plan s.nextPart with
      hsame | ⟨-, -, hnew⟩
    · rw [hsame]
      exact ⟨rfl, rfl, rfl⟩
    · rw [hnew]
      exact ⟨rfl, rfl, rfl⟩

theorem workers_startWorker (s : PartsRun) (plan : UploadPlan) :
    (s.startWorker plan).workers = s.workers ++ [(s.claim plan s.workers.length).2] :=
  congrArg (· ++ [(s.claim plan s.workers.length).2]) (claim_frame s plan s.workers.length).1

theorem shared_startWorker (h : s.Shared plan none) : (s.startWorker plan).Shared plan none := by
  have hclaim := shared_claim h s.workers.length
  refine ⟨hclaim.claimed, hclaim.claimedOnce, hclaim.minted, hclaim.mintedOnce, ?_⟩
  intro b hb
  refine Or.inl ?_
  rcases hclaim.awaited b hb with ⟨p, hp, hbatch⟩ | ⟨p, hnext, hbatch⟩
  · exact ⟨p, List.mem_append_left _ hp, hbatch⟩
  · refine ⟨p, ?_, hbatch⟩
    rw [workers_startWorker]
    exact List.mem_append_right _ (List.mem_singleton.mpr (Option.some.inj hnext).symm)

theorem startWorkers_spec (n : ℕ) (h : s.Shared plan none) (hidle : s.inFlight = 0) :
    (PartsRun.startWorkers plan n s).Shared plan none ∧ (PartsRun.startWorkers plan n s).inFlight = 0 ∧
      (PartsRun.startWorkers plan n s).workers.length = s.workers.length + n ∧
      (PartsRun.startWorkers plan n s).stage = s.stage := by
  induction n generalizing s with
  | zero => exact ⟨h, hidle, rfl, rfl⟩
  | succ n ih =>
    have hworkers := workers_startWorker s plan
    have hone : (s.startWorker plan).inFlight = 0 := by
      unfold PartsRun.inFlight
      rw [hworkers, List.countP_append, List.countP_singleton, (claim_frame s plan s.workers.length).2.2]
      exact hidle
    have hkept : (s.startWorker plan).stage = s.stage := (claim_frame s plan s.workers.length).2.1
    obtain ⟨hshared, hrest, hlength, hstage⟩ := ih (shared_startWorker h) hone
    refine ⟨hshared, hrest, ?_, hstage.trans hkept⟩
    show (PartsRun.startWorkers plan n (s.startWorker plan)).workers.length = _
    rw [hlength, hworkers, List.length_append, List.length_singleton]
    omega

end Steps

/-! ## The steps, one by one -/

section Inversion

variable {plan : UploadPlan} {s s' : PartsRun} {e : PartsEvent} {i partNumber attempt batchIndex : ℕ}
  {worker next : PartWorker}

/-- A worker that does not wait for an answer that is still to come. -/
def PartsRun.Served (s : PartsRun) (plan : UploadPlan) (worker : PartWorker) : Prop :=
  ∀ partNumber, worker = .waiting partNumber false → s.batchRequests (plan.batchIndex partNumber) ≠ some .pending

/-- What a step can do. -/
inductive PartsStep (plan : UploadPlan) (s : PartsRun) : PartsEvent → PartsRun → Prop
  | abort : PartsStep plan s .abort { s with aborted := true }
  | settle {e : PartsEvent} (hstage : s.stage = .creating ∨ s.stage = .verifying) (hevent : e ≠ .rejectRun)
      (hputs : ¬ s.Puts plan e) : PartsStep plan s e { s with stage := .settled }
  | start (hstage : s.stage = .creating) :
      PartsStep plan s .sessionCreated (PartsRun.startWorkers plan plan.concurrency { s with stage := .transferring })
  | answer {batchIndex : ℕ} {parts : Option (List (ℕ × String))} (hpending : s.batchRequests batchIndex = some .pending) :
      PartsStep plan s (.batchAnswered batchIndex parts) (s.batchAnswered batchIndex parts)
  | attempt {e : PartsEvent} {i partNumber attempt : ℕ} {worker : PartWorker} (hworker : s.workers[i]? = some worker)
      (hserved : s.Served plan worker) (hlively : s.lively plan worker = true) (hputs : s.Puts plan e ↔ s.aborted = false)
      (hevent : e ≠ .rejectRun) : PartsStep plan s e (s.attemptPut plan i partNumber attempt)
  | fail {e : PartsEvent} {i : ℕ} {worker : PartWorker} (hworker : s.workers[i]? = some worker)
      (hserved : s.Served plan worker) (hopen : worker ≠ .returned) (hputs : ¬ s.Puts plan e) (hevent : e ≠ .rejectRun) :
      PartsStep plan s e (s.setWorker i .failed)
  | sleep {i partNumber attempt : ℕ} {isAbort : Bool} (hworker : s.workers[i]? = some (.putting partNumber attempt))
      (hlive : s.aborted = false) :
      PartsStep plan s (.putFailed i isAbort) (s.setWorker i (.sleeping partNumber attempt))
  | loaded {i partNumber attempt : ℕ} {bytes : ℤ} (hworker : s.workers[i]? = some (.putting partNumber attempt))
      (hlive : s.aborted = false) : PartsStep plan s (.loaded i bytes) (s.onLoaded plan partNumber bytes)
  | done {i partNumber attempt : ℕ} {etag : Option String} (hworker : s.workers[i]? = some (.putting partNumber attempt))
      (hlive : s.aborted = false) : PartsStep plan s (.putOk i etag) (s.partDone plan i partNumber etag)
  | reject (hstage : s.stage = .transferring) : PartsStep plan s .rejectRun { s with stage := .settled }
  | verify (hstage : s.stage = .transferring) (hworkers : ∀ worker ∈ s.workers, worker = .returned) :
      PartsStep plan s .allReturned { s.report plan.file.length with stage := .verifying }

/-- A worker that is at its URL goes on to a PUT exactly if the URL is there. -/
theorem resume_cases {cached : Bool} (hworker : s.workers[i]? = some (.waiting partNumber cached))
    (h : s.resume plan i partNumber cached = some s') : PartsStep plan s (.resume i) s' := by
  have hputs : ∀ lively, s.lively plan (.waiting partNumber cached) = lively →
      (s.Puts plan (.resume i) ↔ s.aborted = false ∧ lively = true) := by
    intro lively hlively
    constructor
    · rintro ⟨hlive, worker, hget, hputs⟩
      cases hworker.symm.trans hget
      exact ⟨hlive, hlively.symm.trans hputs⟩
    · rintro ⟨hlive, rfl⟩
      exact ⟨hlive, _, hworker, hlively⟩
  cases cached with
  | true =>
    cases h
    have hlively : s.lively plan (.waiting partNumber true) = true := rfl
    exact .attempt hworker (fun _ heq => (by cases heq)) hlively ((hputs true hlively).trans (and_iff_left rfl)) nofun
  | false =>
    rw [PartsRun.resume, if_neg Bool.false_ne_true] at h
    have hserved : s.batchRequests (plan.batchIndex partNumber) ≠ some .pending →
        s.Served plan (.waiting partNumber false) := by
      intro hbatch p heq
      cases heq
      exact hbatch
    cases hbatch : s.batchRequests (plan.batchIndex partNumber) with
    | none =>
      simp only [hbatch] at h
      cases h
    | some request =>
      simp only [hbatch] at h hserved
      cases request with
      | pending => cases h
      | minted =>
        have hurl : s.lively plan (.waiting partNumber false) = (truthy (s.urls partNumber)).isSome := by
          simp only [PartsRun.lively, hbatch, Bool.false_or]
        split_ifs at h with hthere
        · cases h
          exact .attempt hworker (hserved nofun) (hurl.trans hthere)
            ((hputs true (hurl.trans hthere)).trans (and_iff_left rfl)) nofun
        · cases h
          have hgone := hurl.trans (Bool.eq_false_iff.mpr hthere)
          exact .fail hworker (hserved nofun) nofun (fun hput => Bool.false_ne_true ((hputs false hgone).mp hput).2) nofun
      | refused =>
        cases h
        have hgone : s.lively plan (.waiting partNumber false) = false := by
          simp only [PartsRun.lively, hbatch, Bool.false_or]
        exact .fail hworker (hserved nofun) nofun (fun hput => Bool.false_ne_true ((hputs false hgone).mp hput).2) nofun

theorem partsStep_of_step (h : PartsRun.step plan s e = some s') : PartsStep plan s e s' := by
  cases e with
  | sessionCreated =>
    simp only [PartsRun.step] at h
    split_ifs at h with hstage haborted
    · cases h
      exact .settle (Or.inl hstage) nofun id
    · cases h
      exact .start hstage
  | sessionFailed =>
    simp only [PartsRun.step] at h
    split_ifs at h with hstage
    cases h
    exact .settle (Or.inl hstage) nofun id
  | abort =>
    cases h
    exact .abort
  | batchAnswered b parts =>
    simp only [PartsRun.step] at h
    split_ifs at h with hpending
    cases h
    exact .answer hpending
  | resume i =>
    simp only [PartsRun.step] at h
    split at h
    · rename_i hworker
      exact resume_cases hworker h
    · cases h
  | loaded i bytes =>
    simp only [PartsRun.step] at h
    split at h
    · rename_i hworker
      split_ifs at h with haborted
      cases h
      exact .loaded hworker (Bool.eq_false_iff.mpr haborted)
    · cases h
  | putOk i etag =>
    simp only [PartsRun.step] at h
    split at h
    · rename_i hworker
      split_ifs at h with haborted
      cases h
      exact .done hworker (Bool.eq_false_iff.mpr haborted)
    · cases h
  | putFailed i isAbort =>
    simp only [PartsRun.step] at h
    split at h
    · rename_i hworker
      split_ifs at h with hlast
      · cases h
        exact .fail hworker (fun _ heq => (by cases heq)) nofun id nofun
      · cases h
        refine .sleep hworker ?_
        cases haborted : s.aborted with
        | false => rfl
        | true =>
          rw [haborted, Bool.or_true] at hlast
          exact absurd rfl hlast
    · cases h
  | wake i =>
    simp only [PartsRun.step] at h
    split at h
    · rename_i hworker
      cases h
      exact .attempt hworker (fun _ heq => (by cases heq)) rfl Iff.rfl nofun
    · cases h
  | rejectRun =>
    simp only [PartsRun.step] at h
    split_ifs at h with hstage
    cases h
    exact .reject hstage.1
  | allReturned =>
    simp only [PartsRun.step] at h
    split_ifs at h with hstage
    cases h
    exact .verify hstage.1 hstage.2
  | verified =>
    simp only [PartsRun.step] at h
    split_ifs at h with hstage
    cases h
    exact .settle (Or.inr hstage) nofun id
  | verifyFailed =>
    simp only [PartsRun.step] at h
    split_ifs at h with hstage
    cases h
    exact .settle (Or.inr hstage) nofun id

/-- A turn after a part is one from a state that differs in what is up only. -/
theorem partDone_eq (s : PartsRun) (plan : UploadPlan) (i partNumber : ℕ) (etag : Option String) : ∃ t : PartsRun,
    (s.Shared plan none → t.Shared plan none) ∧ t.workers = s.workers ∧ t.stage = s.stage ∧
      s.partDone plan i partNumber etag = (t.claim plan i).1.setWorker i (t.claim plan i).2 := by
  refine ⟨_, ?_, ?_, ?_, rfl⟩
  · exact fun h => h.congr rfl rfl rfl rfl rfl
  · rfl
  · rfl

theorem partDone_frame (s : PartsRun) (plan : UploadPlan) (i partNumber : ℕ) (etag : Option String) : ∃ next : PartWorker,
    next.isPutting = false ∧ (s.partDone plan i partNumber etag).workers = s.workers.set i next ∧
      (s.partDone plan i partNumber etag).stage = s.stage := by
  obtain ⟨t, -, hworkers, hstage, heq⟩ := partDone_eq s plan i partNumber etag
  obtain ⟨hframe, hkept, hidle⟩ := claim_frame t plan i
  rw [heq]
  refine ⟨_, hidle, ?_, hkept.trans hstage⟩
  show (t.claim plan i).1.workers.set i _ = _
  rw [hframe, hworkers]

theorem attemptPut_frame (s : PartsRun) (plan : UploadPlan) (i partNumber attempt : ℕ) :
    (s.attemptPut plan i partNumber attempt).workers =
        s.workers.set i (if s.aborted then .failed else .putting partNumber attempt) ∧
      (s.attemptPut plan i partNumber attempt).stage = s.stage := by
  unfold PartsRun.attemptPut
  split_ifs
  · exact ⟨rfl, rfl⟩
  · exact ⟨rfl, rfl⟩

end Inversion

/-! ## The invariant -/

section Invariant

variable {plan : UploadPlan} {s s' : PartsRun} {e : PartsEvent} {i batchIndex : ℕ} {worker next : PartWorker}

theorem inv_partsStart : PartsRun.Inv {} plan :=
  ⟨⟨nofun, List.nodup_nil, nofun, List.nodup_nil, nofun⟩, Nat.zero_le _, fun _ => rfl, nofun⟩

/-- A worker is at work while parts are transferred, or after the promise is settled. -/
theorem stage_of_open (h : s.Inv plan) (hworker : s.workers[i]? = some worker) (hopen : worker ≠ .returned) :
    s.stage ≠ .creating ∧ s.stage ≠ .verifying := by
  have hmem := List.mem_of_getElem? hworker
  constructor
  · intro hstage
    rw [h.empty hstage] at hmem
    cases hmem
  · intro hstage
    exact hopen (h.ended hstage worker hmem)

theorem inv_of_open (h : s.Inv plan) (hworker : s.workers[i]? = some worker) (hopen : worker ≠ .returned)
    (hshared : s'.Shared plan none) (hworkers : s'.workers = s.workers.set i next) (hstage : s'.stage = s.stage) :
    s'.Inv plan := by
  obtain ⟨hcreating, hverifying⟩ := stage_of_open h hworker hopen
  refine ⟨hshared, ?_, ?_, ?_⟩
  · rw [hworkers, List.length_set]
    exact h.pool
  · rw [hstage]
    exact fun hstage => absurd hstage hcreating
  · rw [hstage]
    exact fun hstage => absurd hstage hverifying

theorem shared_batchAnswered (h : s.Shared plan none) (parts : Option (List (ℕ × String))) :
    (s.batchAnswered batchIndex parts).Shared plan none := by
  obtain ⟨urls, request, hrequest, heq⟩ : ∃ urls request, request ≠ BatchRequest.pending ∧
      s.batchAnswered batchIndex parts =
        { s with urls, batchRequests := Function.update s.batchRequests batchIndex (some request) } := by
    cases parts with
    | none => exact ⟨s.urls, .refused, nofun, rfl⟩
    | some parts => exact ⟨_, .minted, nofun, rfl⟩
  rw [heq]
  refine ⟨h.claimed, h.claimedOnce, ?_, h.mintedOnce, ?_⟩
  · intro b hb
    show Function.update s.batchRequests batchIndex (some request) b ≠ none
    rw [Function.update_apply]
    split_ifs
    · exact Option.some_ne_none _
    · exact h.minted b hb
  · intro b hb
    have hb : Function.update s.batchRequests batchIndex (some request) b = some .pending := hb
    rw [Function.update_apply] at hb
    split_ifs at hb
    · exact absurd (Option.some.inj hb) hrequest
    · exact h.awaited b hb

theorem startWorkers_start (h : s.Inv plan) (hstage : s.stage = .creating) :
    (PartsRun.startWorkers plan plan.concurrency { s with stage := .transferring }).Shared plan none ∧
      (PartsRun.startWorkers plan plan.concurrency { s with stage := .transferring }).inFlight = 0 ∧
      (PartsRun.startWorkers plan plan.concurrency { s with stage := .transferring }).workers.length = plan.concurrency ∧
      (PartsRun.startWorkers plan plan.concurrency { s with stage := .transferring }).stage = .transferring := by
  have hempty := h.empty hstage
  have hshared : PartsRun.Shared { s with stage := .transferring } plan none := h.congr rfl rfl rfl rfl rfl
  have hidle : PartsRun.inFlight { s with stage := .transferring } = 0 := by
    unfold PartsRun.inFlight
    rw [hempty]
    rfl
  obtain ⟨hshared, hidle, hlength, hstage⟩ := startWorkers_spec plan.concurrency hshared hidle
  refine ⟨hshared, hidle, ?_, hstage⟩
  rw [hlength, hempty]
  exact Nat.zero_add _

theorem inv_partsStep (h : s.Inv plan) (hs : PartsStep plan s e s') : s'.Inv plan := by
  cases hs with
  | abort => exact ⟨h.congr rfl rfl rfl rfl rfl, h.pool, h.empty, h.ended⟩
  | settle => exact ⟨h.congr rfl rfl rfl rfl rfl, h.pool, nofun, nofun⟩
  | start hstage =>
    obtain ⟨hshared, -, hlength, hstage⟩ := startWorkers_start h hstage
    refine ⟨hshared, ?_, ?_, ?_⟩
    · exact Nat.le_of_eq hlength
    · rw [hstage]
      nofun
    · rw [hstage]
      nofun
  | answer =>
    rename_i batchIndex parts hpending
    have hkept : (s.batchAnswered batchIndex parts).workers = s.workers ∧
        (s.batchAnswered batchIndex parts).stage = s.stage := by
      cases parts with
      | none => exact ⟨rfl, rfl⟩
      | some parts => exact ⟨rfl, rfl⟩
    refine ⟨shared_batchAnswered h.toShared parts, ?_, ?_, ?_⟩
    · rw [hkept.1]
      exact h.pool
    · rw [hkept.1, hkept.2]
      exact h.empty
    · rw [hkept.1, hkept.2]
      exact h.ended
  | attempt hworker hserved hlively =>
    have hopen : ∀ worker, s.lively plan worker = true → worker ≠ .returned := by
      rintro worker hlively rfl
      cases hlively
    obtain ⟨hworkers, hstage⟩ := attemptPut_frame s plan _ _ _
    exact inv_of_open h hworker (hopen _ hlively) (shared_attemptPut h.toShared hworker hserved) hworkers hstage
  | fail hworker hserved hopen =>
    exact inv_of_open h hworker hopen (shared_setWorker (shared_own h.toShared _) hworker hserved) rfl rfl
  | sleep hworker =>
    rename_i i partNumber attempt isAbort hlive
    have hshared := shared_setWorker (shared_own h.toShared (some (.sleeping partNumber attempt))) hworker nofun
    exact inv_of_open h hworker nofun hshared rfl rfl
  | loaded hworker => exact ⟨h.congr rfl rfl rfl rfl rfl, h.pool, h.empty, h.ended⟩
  | done hworker =>
    rename_i i partNumber attempt etag hlive
    obtain ⟨next, -, hworkers, hstage⟩ := partDone_frame s plan i partNumber etag
    obtain ⟨t, hshared, hkept, -, heq⟩ := partDone_eq s plan i partNumber etag
    have hclaim := shared_claim (hshared h.toShared) i
    rw [heq] at hworkers hstage ⊢
    have hget : (t.claim plan i).1.workers[i]? = some (.putting partNumber attempt) := by
      rw [(claim_frame t plan i).1, hkept]
      exact hworker
    exact inv_of_open h hworker nofun (shared_setWorker hclaim hget nofun) hworkers hstage
  | reject => exact ⟨h.congr rfl rfl rfl rfl rfl, h.pool, nofun, nofun⟩
  | verify hstage hworkers => exact ⟨h.congr rfl rfl rfl rfl rfl, h.pool, nofun, fun _ => hworkers⟩

end Invariant

/-! ## After the promise -/

section Settled

variable {plan : UploadPlan} {s s' : PartsRun} {e : PartsEvent} {i partNumber attempt batchIndex : ℕ}
  {worker next : PartWorker}

/-- Nothing is left that calls. -/
def PartsRun.Still (s : PartsRun) (plan : UploadPlan) : Prop :=
  s.aborted = true ∨ ∀ worker ∈ s.workers, s.lively plan worker = false

theorem aborted_of_still (h : s.Still plan) (hworker : worker ∈ s.workers) (hlively : s.lively plan worker = true) :
    s.aborted = true :=
  h.resolve_right fun hquiet => absurd ((hquiet worker hworker).symm.trans hlively) Bool.false_ne_true

/-- The answer that a batch still waits for is waited for by a worker. -/
theorem aborted_of_pending (h : s.Inv plan) (hstill : s.Still plan)
    (hpending : s.batchRequests batchIndex = some .pending) : s.aborted = true := by
  obtain ⟨p, hp, rfl⟩ := (h.awaited batchIndex hpending).resolve_right nofun
  refine aborted_of_still hstill hp ?_
  simp only [PartsRun.lively, hpending, Bool.or_true]

theorem still_setWorker (h : s.Still plan) (hnext : s.aborted = true ∨ s.lively plan next = false) :
    (s.setWorker i next).Still plan := by
  rcases h with haborted | hquiet
  · exact Or.inl haborted
  · refine hnext.imp id ?_
    intro hnext worker hworker
    rcases List.mem_or_eq_of_mem_set hworker with hold | rfl
    · exact hquiet worker hold
    · exact hnext

theorem still_partsStep (h : s.Inv plan) (hstage : s.stage = .settled) (hstill : s.Still plan)
    (hs : PartsStep plan s e s') : s'.calls = s.calls ∧ s'.stage = .settled ∧ s'.Still plan := by
  have hputting : ∀ i p attempt : ℕ, s.workers[i]? = some (.putting p attempt) → s.aborted = true :=
    fun i p attempt hworker => aborted_of_still hstill (List.mem_of_getElem? hworker) (by rfl)
  cases hs with
  | abort => exact ⟨rfl, hstage, Or.inl rfl⟩
  | settle hwrong =>
    rw [hstage] at hwrong
    rcases hwrong with hwrong | hwrong <;> cases hwrong
  | start hwrong =>
    rw [hstage] at hwrong
    cases hwrong
  | answer hpending =>
    rename_i batchIndex parts
    have haborted := aborted_of_pending h hstill hpending
    cases parts with
    | none => exact ⟨rfl, hstage, Or.inl haborted⟩
    | some parts => exact ⟨rfl, hstage, Or.inl haborted⟩
  | attempt hworker hserved hlively =>
    have haborted := aborted_of_still hstill (List.mem_of_getElem? hworker) hlively
    unfold PartsRun.attemptPut
    rw [if_pos haborted]
    exact ⟨rfl, hstage, Or.inl haborted⟩
  | fail hworker => exact ⟨rfl, hstage, still_setWorker hstill (Or.inr rfl)⟩
  | sleep hworker hlive => exact absurd ((hputting _ _ _ hworker).symm.trans hlive) nofun
  | loaded hworker hlive => exact absurd ((hputting _ _ _ hworker).symm.trans hlive) nofun
  | done hworker hlive => exact absurd ((hputting _ _ _ hworker).symm.trans hlive) nofun
  | reject hwrong =>
    rw [hstage] at hwrong
    cases hwrong
  | verify hwrong =>
    rw [hstage] at hwrong
    cases hwrong

theorem quiet_of_still (h : s.Inv plan) (hstage : s.stage = .settled) (hstill : s.Still plan) :
    ∀ tr, Path (PartsRun.step plan) s tr → (lastState s tr).calls = s.calls := by
  intro tr htr
  induction tr generalizing s with
  | nil => rfl
  | cons entry tr ih =>
    obtain ⟨e, s'⟩ := entry
    have hs := partsStep_of_step htr.1
    obtain ⟨hcalls, hstage', hstill'⟩ := still_partsStep h hstage hstill hs
    have hrest := ih (inv_partsStep h hs) hstage' hstill' htr.2
    exact hrest.trans hcalls

theorem calls_attemptPut (hlive : s.aborted = false) : (s.attemptPut plan i partNumber attempt).calls ≠ s.calls := by
  unfold PartsRun.attemptPut
  rw [if_neg (by rw [hlive]; exact Bool.false_ne_true)]
  intro heq
  have hlength : s.calls.length + 2 = s.calls.length := congrArg List.length heq
  omega

theorem path_resume (hlive : s.aborted = false) (hworker : s.workers[i]? = some (.waiting partNumber false))
    (hbatch : s.batchRequests (plan.batchIndex partNumber) = some .minted)
    (hurl : (truthy (s.urls partNumber)).isSome = true) :
    ∃ s', PartsRun.step plan s (.resume i) = some s' ∧ s'.calls ≠ s.calls := by
  refine ⟨s.attemptPut plan i partNumber 0, ?_, calls_attemptPut hlive⟩
  simp only [PartsRun.step, hworker, PartsRun.resume, hbatch]
  rw [if_neg Bool.false_ne_true, if_pos hurl]

theorem stirs (hlive : s.aborted = false) (hworker : s.workers[i]? = some worker) (hlively : s.lively plan worker = true) :
    ∃ tr, Path (PartsRun.step plan) s tr ∧ (lastState s tr).calls ≠ s.calls := by
  have hone : ∀ e s', PartsRun.step plan s e = some s' → s'.calls ≠ s.calls →
      ∃ tr, Path (PartsRun.step plan) s tr ∧ (lastState s tr).calls ≠ s.calls :=
    fun e s' hs hcalls => ⟨[(e, s')], ⟨hs, trivial⟩, hcalls⟩
  cases worker with
  | waiting p cached =>
    cases cached with
    | true =>
      refine hone (.resume i) (s.attemptPut plan i p 0) ?_ (calls_attemptPut hlive)
      simp only [PartsRun.step, hworker, PartsRun.resume, if_true]
    | false =>
      cases hbatch : s.batchRequests (plan.batchIndex p) with
      | none =>
        simp only [PartsRun.lively, hbatch] at hlively
        cases hlively
      | some request =>
        simp only [PartsRun.lively, hbatch, Bool.false_or] at hlively
        cases request with
        | pending =>
          -- the batch is answered with a URL for the part
          obtain ⟨t, ht⟩ : ∃ t, s.batchAnswered (plan.batchIndex p) (some [(p, "url")]) = t := ⟨_, rfl⟩
          have hanswer : PartsRun.step plan s (.batchAnswered (plan.batchIndex p) (some [(p, "url")])) = some t := by
            simp only [PartsRun.step]
            rw [if_pos hbatch, ht]
          have htbatch : t.batchRequests (plan.batchIndex p) = some .minted := by
            rw [← ht]
            exact Function.update_self ..
          have hturl : t.urls p = some "url" := by
            rw [← ht]
            exact Function.update_self ..
          have htruthy : (truthy (t.urls p)).isSome = true := by
            rw [hturl]
            rfl
          have htlive : t.aborted = false := by
            rw [← ht]
            exact hlive
          have htworker : t.workers[i]? = some (.waiting p false) := by
            rw [← ht]
            exact hworker
          have htcalls : t.calls = s.calls := by
            rw [← ht]
            rfl
          obtain ⟨s', hs, hcalls⟩ := path_resume htlive htworker htbatch htruthy
          rw [htcalls] at hcalls
          exact ⟨[(_, t), (_, s')], ⟨hanswer, hs, trivial⟩, hcalls⟩
        | minted =>
          obtain ⟨s', hs, hcalls⟩ := path_resume hlive hworker hbatch hlively
          exact hone _ s' hs hcalls
        | refused => cases hlively
  | putting p attempt =>
    refine hone (.loaded i 0) (s.onLoaded plan p 0) ?_ ?_
    · simp only [PartsRun.step, hworker]
      rw [if_neg (by rw [hlive]; exact Bool.false_ne_true)]
    · intro heq
      have hlength : s.calls.length + 1 = s.calls.length := congrArg List.length heq
      omega
  | sleeping p attempt =>
    refine hone (.wake i) (s.attemptPut plan i p (attempt + 1)) ?_ (calls_attemptPut hlive)
    simp only [PartsRun.step, hworker]
  | returned => cases hlively
  | failed => cases hlively

theorem quiet_iff (h : s.Inv plan) : s.Quiet plan ↔ (s.stage = .settled → s.Still plan) := by
  constructor
  · intro hquiet hstage
    by_contra hstill
    obtain ⟨hlive, hsome⟩ := not_or.mp hstill
    push Not at hsome
    obtain ⟨worker, hworker, hlively⟩ := hsome
    obtain ⟨i, hget⟩ := List.mem_iff_getElem?.mp hworker
    obtain ⟨tr, htr, hcalls⟩ := stirs (Bool.eq_false_iff.mpr hlive) hget (Bool.ne_false_iff.mp hlively)
    exact hcalls (hquiet hstage tr htr)
  · exact fun hstill hstage => quiet_of_still h hstage (hstill hstage)

theorem alone_iff (h : s.Inv plan) (hstill : s.stage = .settled → s.Still plan) (hs : PartsStep plan s e s') :
    (s'.stage = .settled → s'.Still plan) ↔ s.Alone plan e := by
  have hkept : s'.stage = s.stage → e ≠ .rejectRun → ((s'.stage = .settled → s'.Still plan) ↔ s.Alone plan e) := by
    intro hstage hevent
    refine iff_of_true ?_ ?_
    · intro hsettled
      have hsettled := hstage.symm.trans hsettled
      exact (still_partsStep h hsettled (hstill hsettled) hs).2.2
    · cases e with
      | rejectRun => exact absurd rfl hevent
      | _ => trivial
  cases hs with
  | abort => exact hkept rfl nofun
  | settle hstage hevent =>
    refine iff_of_true ?_ ?_
    · intro _
      refine Or.inr ?_
      intro worker hworker
      rcases hstage with hstage | hstage
      · have hworker : worker ∈ s.workers := hworker
        rw [h.empty hstage] at hworker
        cases hworker
      · rw [h.ended hstage worker hworker]
        rfl
    · cases e with
      | rejectRun => exact absurd rfl hevent
      | _ => trivial
  | start hstage =>
    obtain ⟨-, -, -, hstage⟩ := startWorkers_start h hstage
    rw [hstage]
    exact iff_of_true nofun trivial
  | answer =>
    rename_i batchIndex parts hpending
    refine hkept ?_ nofun
    cases parts with
    | none => rfl
    | some parts => rfl
  | attempt _ _ _ _ hevent => exact hkept (attemptPut_frame s plan _ _ _).2 hevent
  | fail _ _ _ _ hevent => exact hkept rfl hevent
  | sleep => exact hkept rfl nofun
  | loaded => exact hkept rfl nofun
  | done =>
    obtain ⟨next, -, -, hstage⟩ := partDone_frame s plan _ _ _
    exact hkept hstage nofun
  | reject => exact ⟨fun h => h rfl, fun h _ => h⟩
  | verify => exact iff_of_true nofun trivial

end Settled

/-! ## The PUTs in flight -/

section Flight

variable {plan : UploadPlan} {s s' : PartsRun} {e : PartsEvent} {i partNumber attempt : ℕ} {worker next : PartWorker}

theorem inFlight_le (h : s.Inv plan) (hmax : 1 ≤ plan.maxParallelParts) : s.inFlight ≤ plan.maxParallelParts := by
  have hcount : s.inFlight ≤ s.workers.length := List.countP_le_length
  have hpool : s.workers.length ≤ max 1 (min plan.maxParallelParts plan.totalParts) := h.pool
  omega

theorem not_putting (hidle : s.inFlight = 0) (hworker : s.workers[i]? = some worker) : worker.isPutting = false :=
  Bool.eq_false_iff.mpr (List.countP_eq_zero.mp hidle worker (List.mem_of_getElem? hworker))

theorem inFlight_set (hidle : s.inFlight = 0) (hworker : s.workers[i]? = some worker)
    (hworkers : s'.workers = s.workers.set i next) : s'.inFlight = 0 ↔ next.isPutting = false := by
  obtain ⟨hi, -⟩ := List.getElem?_eq_some_iff.mp hworker
  unfold PartsRun.inFlight
  rw [hworkers, List.countP_eq_zero]
  constructor
  · intro hnone
    exact Bool.eq_false_iff.mpr (hnone next (List.mem_set hi next))
  · intro hnext worker hworker
    rcases List.mem_or_eq_of_mem_set hworker with hold | rfl
    · exact List.countP_eq_zero.mp hidle worker hold
    · exact Bool.eq_false_iff.mp hnext

theorem idle_iff (h : s.Inv plan) (hidle : s.inFlight = 0) (hs : PartsStep plan s e s') :
    s'.inFlight = 0 ↔ ¬ s.Puts plan e := by
  cases hs with
  | abort => exact iff_of_true hidle id
  | settle _ _ hputs => exact iff_of_true hidle hputs
  | start hstage => exact iff_of_true (startWorkers_start h hstage).2.1 id
  | answer =>
    rename_i batchIndex parts hpending
    refine iff_of_true ?_ id
    cases parts with
    | none => exact hidle
    | some parts => exact hidle
  | attempt hworker hserved hlively hputs =>
    rw [inFlight_set hidle hworker (attemptPut_frame s plan _ _ _).1, hputs]
    cases s.aborted with
    | false => exact iff_of_false nofun fun hnot => hnot rfl
    | true => exact iff_of_true rfl nofun
  | fail hworker _ _ hputs => exact iff_of_true ((inFlight_set hidle hworker rfl).mpr rfl) hputs
  | sleep hworker => exact iff_of_true ((inFlight_set hidle hworker rfl).mpr rfl) id
  | loaded => exact iff_of_true hidle id
  | done hworker => exact absurd (not_putting hidle hworker) nofun
  | reject => exact iff_of_true hidle id
  | verify => exact iff_of_true hidle id

theorem allowed_iff (h : s.Inv plan) (hbounded : s.inFlight ≤ plan.maxParallelParts) (hs : PartsStep plan s e s') :
    s'.inFlight ≤ plan.maxParallelParts ↔ s.Allowed plan e := by
  rcases Nat.eq_zero_or_pos plan.maxParallelParts with hzero | hmax
  · unfold PartsRun.Allowed
    rw [hzero, Nat.le_zero] at hbounded ⊢
    rw [idle_iff h hbounded hs]
    exact (or_iff_right (by omega)).symm
  · exact iff_of_true (inFlight_le (inv_partsStep h hs) hmax) (Or.inl hmax)

end Flight

/-! ## The uploads that settle -/

section Settlement

variable {plan : UploadPlan} {s s' : PartsRun} {e : PartsEvent}

theorem sound_iff (h : s.Inv plan) :
    s.Sound plan ↔ (s.stage = .settled → s.Still plan) ∧ s.inFlight ≤ plan.maxParallelParts := by
  constructor
  · intro hsound
    exact ⟨(quiet_iff h).mp hsound.quiet, hsound.bounded⟩
  · rintro ⟨hstill, hbounded⟩
    exact ⟨hbounded, h.claimedOnce, h.mintedOnce, (quiet_iff h).mpr hstill⟩

theorem sound_partsStart : ({} : PartsRun).Sound plan := (sound_iff inv_partsStart).mpr ⟨nofun, Nat.zero_le _⟩

theorem sound_partsStep (h : s.Inv plan) (hsound : s.Sound plan) (hs : PartsStep plan s e s') :
    s'.Sound plan ↔ s.Alone plan e ∧ s.Allowed plan e := by
  obtain ⟨hstill, hbounded⟩ := (sound_iff h).mp hsound
  rw [sound_iff (inv_partsStep h hs), alone_iff h hstill hs, allowed_iff h hbounded hs]

/-- **In a multipart upload no more PUTs are in flight than allowed, no part is claimed twice, no batch is asked for twice, and
nothing is called once the promise is settled**, in every state reached, exactly if it is never rejected while another worker
may still call, unless its signal is aborted, and no worker starts a PUT where none is allowed. -/
theorem parts_settle_iff {plan : UploadPlan} {tr : List (PartsEvent × PartsRun)} (htr : Path (PartsRun.step plan) {} tr) :
    Throughout (fun _ _ s' => s'.Sound plan) {} tr ↔ Throughout (fun s e _ => s.Alone plan e ∧ s.Allowed plan e) {} tr := by
  refine throughout_iff (I := fun s => s.Inv plan) ?_ ?_ inv_partsStart sound_partsStart htr
  · intro s e s' h hs
    exact inv_partsStep h (partsStep_of_step hs)
  · intro s e s' h hsound hs
    exact sound_partsStep h hsound (partsStep_of_step hs)

/-- Four parts, of which the URLs of the first three come in one batch. -/
def fourParts : UploadPlan where
  file := [1, 2, 3, 4]
  uploadId := "u-1"
  partSizeBytes := 1
  partBatchSize := 3

/-- Three workers start their PUTs. -/
def threePuts : List PartsEvent :=
  [.sessionCreated, .batchAnswered 0 (some [(1, "https://part-1"), (2, "https://part-2"), (3, "https://part-3")]),
    .resume 0, .resume 1, .resume 2]

/-- The user cancels. -/
theorem canceled_settles : Throughout (fun _ _ s' => s'.Sound fourParts) {}
    (trace (PartsRun.step fourParts) {} (threePuts ++ [.abort, .putFailed 0 true, .rejectRun, .putFailed 1 true])) := by
  refine (parts_settle_iff (path_trace _ _)).mpr ?_
  have hallowed : ∀ s e, PartsRun.Allowed fourParts s e := fun _ _ => Or.inl (by decide)
  exact ⟨⟨trivial, hallowed _ _⟩, ⟨trivial, hallowed _ _⟩, ⟨trivial, hallowed _ _⟩, ⟨trivial, hallowed _ _⟩,
    ⟨trivial, hallowed _ _⟩, ⟨trivial, hallowed _ _⟩, ⟨trivial, hallowed _ _⟩, ⟨Or.inl rfl, hallowed _ _⟩,
    ⟨trivial, hallowed _ _⟩, trivial⟩

def firstFails : List PartsEvent :=
  threePuts ++ ([.putFailed 0 false, .wake 0, .putFailed 0 false, .wake 0, .putFailed 0 false, .wake 0, .putFailed 0 false,
    .rejectRun] : List PartsEvent)

def rejectedRun : PartsRun := lastState {} (trace (PartsRun.step fourParts) {} firstFails)

/-- The second part is up, and its worker takes the fourth. -/
def secondGoesOn : List PartsEvent := [.putOk 1 (some "etag"), .batchAnswered 1 (some [(4, "https://part-4")]), .resume 1]

/-- After the upload was rejected the worker of the second part reports, asks for a batch and starts a PUT. -/
theorem rejected_goes_on :
    rejectedRun.stage = .settled ∧
    (lastState rejectedRun (trace (PartsRun.step fourParts) rejectedRun secondGoesOn)).calls =
      .put 4 :: .progress 1 :: .mint 1 [4] :: .progress 1 :: rejectedRun.calls ∧
    ¬ Throughout (fun _ _ s' => s'.Sound fourParts) {} (trace (PartsRun.step fourParts) {} firstFails) := by
  have hcalls : (lastState rejectedRun (trace (PartsRun.step fourParts) rejectedRun secondGoesOn)).calls =
      .put 4 :: .progress 1 :: .mint 1 [4] :: .progress 1 :: rejectedRun.calls := by decide +kernel
  refine ⟨by decide +kernel, hcalls, ?_⟩
  intro hsound
  have hlast : rejectedRun.Sound fourParts := last_of_throughout sound_partsStart hsound
  have hquiet := hlast.quiet (by decide +kernel) _ (path_trace secondGoesOn rejectedRun)
  have hlength := congrArg List.length (hcalls.symm.trans hquiet)
  simp only [List.length_cons] at hlength
  omega

end Settlement

end Transform.Web
