import Transform.Queues.JobTopic
import Transform.Worker.Settlement

/-!
# Queues.JobDelivery — what a consumer hands out, and what it acknowledges

A consumer over any sequence of its calls and of the replies to its reads, whose memory of the streams may be lost at any
time.  `deliveries_exact`: it hands out what was delivered, once and in order, and acknowledges each delivery where it came
from.
-/

namespace Transform.Queues

open Lib Conversions Worker

/-! ## The calls -/

section Calls

/-- An entry of a reply: its stream, its id and its fields. -/
abbrev Entry : Type := String × String × Fields

/-- A call on the consumer, or the loss of what it remembers of the streams. -/
inductive ConsumerOp
  | fetch
  | acknowledge (key : String)
  | fail (key errorMessage : String)
  | forget

/-- The method that is called; only a fetch returns something. -/
def ConsumerOp.method : ConsumerOp → Consumer (Option (String × ConversionJob))
  | .fetch => fetchJob
  | .acknowledge key => do
    acknowledgeJob key
    return none
  | .fail key errorMessage => do
    failJob key errorMessage
    return none
  | .forget => do
    .modify fun c => { c with messageStreams := [] }
    return none

/-- The delivery key that is acknowledged. -/
def ConsumerOp.key : ConsumerOp → Option String
  | .acknowledge key => some key
  | .fail key _ => some key
  | _ => none

/-- A call with what it exchanged and how it ended. -/
structure ConsumerCall where
  op : ConsumerOp
  exchanges : List (Event QueueSig)
  result : Except PyError (Option (String × ConversionJob))

/-- The calls are made one after the other, from one state of the consumer to another. -/
def ConsumerCalls : JobStreamConsumer → List ConsumerCall → JobStreamConsumer → Prop
  | c, [], c' => c' = c
  | c, call :: calls, c' => ∃ next, Run (call.op.method.run c) call.exchanges (call.result, next) ∧
      ConsumerCalls next calls c'

/-- The entries that an exchange delivered. -/
def deliveredBy : Event QueueSig → List Entry
  | ⟨.readGroup _, .ok reply, _, _⟩ => reply
  | _ => []

def ConsumerCall.delivered (call : ConsumerCall) : List Entry := call.exchanges.flatMap deliveredBy

/-- What a call handed out. -/
def ConsumerCall.returned (call : ConsumerCall) : Option (String × ConversionJob) :=
  match call.result with
  | .ok returned => returned
  | .error _ => none

def delivered (calls : List ConsumerCall) : List Entry := calls.flatMap (·.delivered)

def returned (calls : List ConsumerCall) : List (String × ConversionJob) := calls.filterMap (·.returned)

/-- An entry of one of the streams, under an id of Redis, that makes a job. -/
structure WellFormed (streamPrefix : String) (entry : Entry) : Prop where
  stream : entry.1 ∈ qualifyAll streamPrefix jobTierStreams
  messageId : ':' ∉ entry.2.1.toList
  job : ∃ job, buildJob entry.2.2 = .ok job

/-- What was handed out is the entry under its key, and the job that it makes. -/
def HandsOut (handed : String × ConversionJob) (entry : Entry) : Prop :=
  handed.1 = deliveryKey entry.1 entry.2.1 ∧ buildJob entry.2.2 = .ok handed.2

/-- The entries are handed out once each and in order, until none is left, and acknowledged where they came from. -/
structure DeliversExactly (calls : List ConsumerCall) : Prop where
  in_order : List.Forall₂ HandsOut (returned calls) ((delivered calls).take (returned calls).length)
  drained : ∀ before call after, calls = before ++ call :: after → call.op = .fetch → call.returned = none →
    (returned (before ++ [call])).length = (delivered (before ++ [call])).length
  acknowledged : ∀ call ∈ calls, ∀ entry ∈ delivered calls, call.op.key = some (deliveryKey entry.1 entry.2.1) →
    call.exchanges.map Event.op = [.ack entry.1 entry.2.1]

end Calls

/-! ## One call -/

section Step

variable {streamPrefix : String} {c c' : JobStreamConsumer} {tr : List (Event QueueSig)}

/-- What is buffered is well formed, and what is remembered of a key is its stream. -/
structure ConsumerInv (streamPrefix : String) (c : JobStreamConsumer) : Prop where
  streams : c.streams = qualifyAll streamPrefix jobTierStreams
  buffer : ∀ entry ∈ c.buffer, WellFormed streamPrefix entry
  remembered : ∀ known ∈ c.messageStreams, ∃ messageId, ':' ∉ messageId.toList ∧ known.1 = deliveryKey known.2 messageId

theorem lookup_mem {key stream : String} : ∀ {known : List (String × String)}, known.lookup key = some stream →
    (key, stream) ∈ known := by
  intro known
  induction known with
  | nil =>
    intro h
    cases h
  | cons p known ih =>
    intro h
    rw [List.lookup_cons] at h
    split at h
    · rename_i heq
      obtain ⟨k, s⟩ := p
      obtain rfl : key = k := by simpa using heq
      cases h
      exact List.mem_cons_self ..
    · exact List.mem_cons_of_mem _ (ih h)

theorem streamOf_deliveryKey {stream messageId : String} (hI : ConsumerInv streamPrefix c)
    (hstream : stream ∈ qualifyAll streamPrefix jobTierStreams) (hid : ':' ∉ messageId.toList) :
    c.streamOf (deliveryKey stream messageId) = stream := by
  unfold JobStreamConsumer.streamOf
  rcases hlookup : c.messageStreams.lookup (deliveryKey stream messageId) with _ | known
  · dsimp only
    rw [beforeLastColon_deliveryKey stream hid, hI.streams, if_pos hstream]
  · obtain ⟨messageId', hid', hkey⟩ := hI.remembered _ (lookup_mem hlookup)
    exact (deliveryKey_inj_of_ids hid hid' hkey).1.symm

/-- What a call does: it hands out the front of what is outstanding, and acknowledges what its key names. -/
structure CallSpec (streamPrefix : String) (c : JobStreamConsumer) (op : ConsumerOp)
    (r : Option (String × ConversionJob)) (c' : JobStreamConsumer) (tr : List (Event QueueSig)) : Prop where
  inv : ConsumerInv streamPrefix c'
  front : ∃ front, List.Forall₂ HandsOut r.toList front ∧ c.buffer ++ tr.flatMap deliveredBy = front ++ c'.buffer
  drained : op = .fetch → r = none → c'.buffer = []
  acknowledged : ∀ key, op.key = some key → tr.map Event.op = [.ack (c.streamOf key) (rawMessageId (c.streamOf key) key)]

def WellFormedReply (streamPrefix : String) (ev : Event QueueSig) : Prop :=
  ∀ entry ∈ deliveredBy ev, WellFormed streamPrefix entry

theorem buildDelivery_exact {entry : Entry} {E : PyError → JobStreamConsumer → List (Event QueueSig) → Prop}
    {Q : String × ConversionJob → JobStreamConsumer → List (Event QueueSig) → Prop} (hI : ConsumerInv streamPrefix c)
    (hentry : WellFormed streamPrefix entry)
    (hQ : ∀ handed c', HandsOut handed entry → ConsumerInv streamPrefix c' → c'.buffer = c.buffer → Q handed c' tr) :
    wps (.recording (WellFormedReply streamPrefix)) (buildDelivery entry.1 entry.2.1 entry.2.2) Q E c tr := by
  obtain ⟨job, hjob⟩ := hentry.job
  unfold buildDelivery
  rw [wps_bind, wps_modify, wps_bind, wps_act, hjob]
  refine hQ _ _ ⟨rfl, hjob⟩ ⟨hI.streams, hI.buffer, fun known hknown => ?_⟩ rfl
  rcases List.mem_cons.1 hknown with rfl | hknown
  · exact ⟨entry.2.1, hentry.messageId, rfl⟩
  · exact hI.remembered known (List.mem_of_mem_filter hknown)

/-- **A fetch** hands out what is outstanding, and reads only where nothing is. -/
theorem fetchJob_exact (hI : ConsumerInv streamPrefix c) :
    wps (.recording (WellFormedReply streamPrefix)) fetchJob (fun r c' tr => CallSpec streamPrefix c .fetch r c' tr)
      (fun _ c' tr => CallSpec streamPrefix c .fetch none c' tr) c [] := by
  unfold fetchJob
  rw [wps_bind, wps_get]
  rcases hb : c.buffer with _ | ⟨entry, buffer⟩
  · dsimp only
    unfold readJobs redis
    rw [wps_bind, wps_get, wps_bind, wps_act]
    refine wpe_ask.2 ⟨trivial, fun reply hreply => ?_, fun e took hk _ => ?_⟩
    · rcases reply with _ | ⟨entry, rest⟩
      · refine ⟨hI, ⟨[], .nil, ?_⟩, fun _ _ => hb, fun key hkey => (by cases hkey)⟩
        exact List.append_nil _
      · dsimp only
        rw [wps_bind, wps_modify, wps_bind]
        have hread : ConsumerInv streamPrefix { c with buffer := c.buffer ++ rest } := by
          refine ⟨hI.streams, fun e he => ?_, hI.remembered⟩
          rcases List.mem_append.1 he with he | he
          · exact hI.buffer e he
          · exact hreply e (List.mem_cons_of_mem _ he)
        refine buildDelivery_exact hread (hreply entry (List.mem_cons_self ..)) fun handed c' hhanded hc' hbuffer => ?_
        refine ⟨hc', ⟨[entry], .cons hhanded .nil, ?_⟩, fun _ h => (by cases h), fun key hkey => (by cases hkey)⟩
        rw [hbuffer, hb]
        exact List.append_nil _
    · refine ⟨hI, ⟨[], .nil, ?_⟩, fun _ _ => hb, fun key hkey => (by cases hkey)⟩
      exact List.append_nil _
  · dsimp only
    rw [wps_bind, wps_modify, wps_bind]
    have hrest : ConsumerInv streamPrefix { c with buffer } :=
      ⟨hI.streams, fun e he => hI.buffer e (by rw [hb]; exact List.mem_cons_of_mem _ he), hI.remembered⟩
    refine buildDelivery_exact hrest (hI.buffer entry (by rw [hb]; exact List.mem_cons_self ..))
      fun handed c' hhanded hc' hbuffer => ?_
    refine ⟨hc', ⟨[entry], .cons hhanded .nil, ?_⟩, fun _ h => (by cases h), fun key hkey => (by cases hkey)⟩
    rw [hbuffer, hb]
    exact List.append_nil _

theorem inv_forget (hI : ConsumerInv streamPrefix c) {known : List (String × String)}
    (hknown : ∀ p ∈ known, p ∈ c.messageStreams) : ConsumerInv streamPrefix { c with messageStreams := known } :=
  ⟨hI.streams, hI.buffer, fun p hp => hI.remembered p (hknown p hp)⟩

theorem acknowledgeJob_exact {key : String} {op : ConsumerOp} (hkey : op.key = some key) (hop : op ≠ .fetch)
    (hI : ConsumerInv streamPrefix c) :
    wps (.recording (WellFormedReply streamPrefix)) (acknowledgeJob key)
      (fun _ c' tr => CallSpec streamPrefix c op none c' tr) (fun _ c' tr => CallSpec streamPrefix c op none c' tr) c [] := by
  have hspec : ∀ ev : Event QueueSig, ev.op = .ack (c.streamOf key) (rawMessageId (c.streamOf key) key) →
      CallSpec streamPrefix c op none { c with messageStreams := c.messageStreams.filter (·.1 ≠ key) } [ev] := by
    intro ev hev
    refine ⟨inv_forget hI fun p hp => List.mem_of_mem_filter hp, ⟨[], .nil, ?_⟩, fun h => absurd h hop, fun key' hkey' => ?_⟩
    · obtain ⟨_, out, took, hk⟩ := ev
      obtain rfl := hev
      exact List.append_nil _
    · rw [hkey] at hkey'
      cases hkey'
      exact congrArg (fun o => [o]) hev
  unfold acknowledgeJob streamForMessage redis
  rw [wps_bind, wps_bind, wps_get, wps_bind, wps_modify, wps_pure, wps_act]
  exact wpe_ask.2 ⟨trivial, fun _ _ => hspec _ rfl, fun _ _ _ _ => hspec _ rfl⟩

theorem method_spec (op : ConsumerOp) (hI : ConsumerInv streamPrefix c) :
    wps (.recording (WellFormedReply streamPrefix)) op.method (fun r c' tr => CallSpec streamPrefix c op r c' tr)
      (fun _ c' tr => CallSpec streamPrefix c op none c' tr) c [] := by
  cases op with
  | fetch => exact fetchJob_exact hI
  | acknowledge key =>
    refine wps_bind.2 (wps_mono (@acknowledgeJob_exact _ _ _ (.acknowledge key) rfl (fun h => by cases h) hI) ?_ ?_)
    · exact fun _ _ _ h => h
    · exact fun _ _ _ h => h
  | fail key errorMessage =>
    refine wps_bind.2 (wps_mono (@acknowledgeJob_exact _ _ _ (.fail key errorMessage) rfl (fun h => by cases h) hI) ?_ ?_)
    · exact fun _ _ _ h => h
    · exact fun _ _ _ h => h
  | forget =>
    refine ⟨inv_forget hI fun p hp => (by cases hp), ⟨[], .nil, List.append_nil _⟩, fun h => (by cases h),
      fun key hkey => (by cases hkey)⟩

theorem call_spec {call : ConsumerCall} {next : JobStreamConsumer} (hI : ConsumerInv streamPrefix c)
    (hrun : Run (call.op.method.run c) call.exchanges (call.result, next))
    (hreplies : ∀ entry ∈ call.delivered, WellFormed streamPrefix entry) :
    CallSpec streamPrefix c call.op call.returned next call.exchanges := by
  have hwell : ∀ ev ∈ call.exchanges, WellFormedReply streamPrefix ev := fun ev hev entry he =>
    hreplies entry (List.mem_flatMap.2 ⟨ev, hev, he⟩)
  have hpost := wp_recording_run (method_spec call.op hI) hrun hwell
  unfold ConsumerCall.returned
  rcases hresult : call.result with e | r
  · rw [hresult] at hpost
    exact hpost
  · rw [hresult] at hpost
    exact hpost

end Step

/-! ## Runs -/

section Runs

variable {streamPrefix : String} {c c' : JobStreamConsumer}

theorem calls_spec : ∀ {calls : List ConsumerCall} {c : JobStreamConsumer}, ConsumerInv streamPrefix c →
    ConsumerCalls c calls c' → (∀ call ∈ calls, ∀ entry ∈ call.delivered, WellFormed streamPrefix entry) →
    ConsumerInv streamPrefix c' ∧ ∃ front, List.Forall₂ HandsOut (returned calls) front ∧
      c.buffer ++ delivered calls = front ++ c'.buffer := by
  intro calls
  induction calls with
  | nil =>
    rintro c hI rfl -
    exact ⟨hI, [], .nil, List.append_nil _⟩
  | cons call calls ih =>
    rintro c hI ⟨next, hrun, hcalls⟩ hwell
    have hspec := call_spec hI hrun fun entry he => hwell call (List.mem_cons_self ..) entry he
    obtain ⟨front, hfront, hsplit⟩ := hspec.front
    obtain ⟨hI', rest, hrest, hsplit'⟩ := ih hspec.inv hcalls fun call hc => hwell call (List.mem_cons_of_mem _ hc)
    refine ⟨hI', front ++ rest, ?_, ?_⟩
    · have hreturned : returned (call :: calls) = call.returned.toList ++ returned calls := by
        unfold returned
        rw [List.filterMap_cons]
        rcases call.returned with _ | handed <;> rfl
      rw [hreturned]
      exact List.rel_append hfront hrest
    · show c.buffer ++ (call.delivered ++ delivered calls) = _
      rw [← List.append_assoc]
      show c.buffer ++ call.exchanges.flatMap deliveredBy ++ delivered calls = _
      rw [hsplit, List.append_assoc, hsplit', List.append_assoc]

theorem calls_append : ∀ {before after : List ConsumerCall} {c : JobStreamConsumer},
    ConsumerCalls c (before ++ after) c' ↔ ∃ m, ConsumerCalls c before m ∧ ConsumerCalls m after c' := by
  intro before after
  induction before with
  | nil =>
    intro c
    exact ⟨fun h => ⟨c, rfl, h⟩, fun ⟨m, hm, h⟩ => by obtain rfl : m = c := hm; exact h⟩
  | cons call before ih =>
    intro c
    constructor
    · rintro ⟨next, hrun, hcalls⟩
      obtain ⟨m, hbefore, hafter⟩ := ih.1 hcalls
      exact ⟨m, ⟨next, hrun, hbefore⟩, hafter⟩
    · rintro ⟨m, ⟨next, hrun, hbefore⟩, hafter⟩
      exact ⟨next, hrun, ih.2 ⟨m, hbefore, hafter⟩⟩

theorem consumerInv_create : ConsumerInv streamPrefix (.create streamPrefix) :=
  ⟨rfl, fun entry h => (by cases h), fun known h => by cases h⟩

/-- Nothing is outstanding at first. -/
theorem delivered_split {calls : List ConsumerCall} (hcalls : ConsumerCalls (.create streamPrefix) calls c')
    (hwell : ∀ call ∈ calls, ∀ entry ∈ call.delivered, WellFormed streamPrefix entry) :
    ConsumerInv streamPrefix c' ∧ ∃ front, List.Forall₂ HandsOut (returned calls) front ∧
      delivered calls = front ++ c'.buffer :=
  calls_spec consumerInv_create hcalls hwell

/-- **Deliveries are exact**: over any replies of well-formed entries and any order of calls, also after what is remembered
of the streams was lost, the delivered entries are handed out, each once and in order, and a delivery is acknowledged on its
stream and under its id. -/
theorem deliveries_exact {calls : List ConsumerCall} (hcalls : ConsumerCalls (.create streamPrefix) calls c')
    (hwell : ∀ call ∈ calls, ∀ entry ∈ call.delivered, WellFormed streamPrefix entry) : DeliversExactly calls where
  in_order := by
    obtain ⟨-, front, hfront, hsplit⟩ := delivered_split hcalls hwell
    rw [hsplit, hfront.length_eq, List.take_left]
    exact hfront
  drained := by
    rintro before call after rfl hop hnone
    obtain ⟨m, hbefore, next, hrun, -⟩ := calls_append.1 hcalls
    have hwell' : ∀ c ∈ before ++ [call], ∀ entry ∈ c.delivered, WellFormed streamPrefix entry := by
      intro c hc
      refine hwell c ?_
      rw [List.append_cons]
      exact List.mem_append_left _ hc
    obtain ⟨hI, -⟩ := delivered_split hbefore fun c hc => hwell c (List.mem_append_left _ hc)
    have hspec := call_spec hI hrun fun entry he =>
      hwell call (List.mem_append_right _ (List.mem_cons_self ..)) entry he
    have hone : ConsumerCalls m [call] next := ⟨next, hrun, rfl⟩
    obtain ⟨-, front, hfront, hsplit⟩ := delivered_split (calls_append.2 ⟨m, hbefore, hone⟩) hwell'
    rw [hspec.drained hop hnone, List.append_nil] at hsplit
    rw [hsplit]
    exact hfront.length_eq
  acknowledged := by
    intro call hcall entry hentry hkey
    obtain ⟨before, after, rfl⟩ := List.append_of_mem hcall
    obtain ⟨m, hbefore, next, hrun, -⟩ := calls_append.1 hcalls
    obtain ⟨hI, -⟩ := delivered_split hbefore fun c hc => hwell c (List.mem_append_left _ hc)
    have hspec := call_spec hI hrun fun entry he => hwell call hcall entry he
    obtain ⟨source, hsource, hin⟩ := List.mem_flatMap.1 hentry
    have hwf := hwell source hsource entry hin
    rw [hspec.acknowledged _ hkey, streamOf_deliveryKey hI hwf.stream hwf.messageId, rawMessageId_deliveryKey]

end Runs

/-! ## A concrete run -/

section Concrete

def guestFields : Fields := { deliveredMessage with userId := none : ConversionJobMessage }.toDict

/-- Two streams deliver entries of one id. -/
def sameIds : List Entry := [("conversion_jobs:low", "1-0", guestFields), ("conversion_jobs", "1-0", guestFields)]

def sameIdsEnv : Env QueueSig Unit where
  reply _ op :=
    match op with
    | .readGroup _ => .ok sameIds
    | .ack _ _ => .ok ()
    | _ => .error ⟨.other, "unexpected"⟩
  effect _ _ := ()

/-- The calls against that server. -/
def playCalls : JobStreamConsumer → List ConsumerOp → List ConsumerCall × JobStreamConsumer
  | c, [] => ([], c)
  | c, op :: ops =>
    let run := (op.method.run c).play sameIdsEnv ()
    let rest := playCalls run.2.2 ops
    (⟨op, run.1, run.2.1⟩ :: rest.1, rest.2)

theorem calls_playCalls : ∀ (ops : List ConsumerOp) (c : JobStreamConsumer),
    ConsumerCalls c (playCalls c ops).1 (playCalls c ops).2 := by
  intro ops
  induction ops with
  | nil => exact fun _ => rfl
  | cons op ops ih => exact fun c => ⟨_, run_play sameIdsEnv (op.method.run c) (), ih _⟩

/-- Both are fetched, and the second is acknowledged twice after its stream was forgotten. -/
def forgottenRun : List ConsumerCall × JobStreamConsumer :=
  playCalls (.create "") [.fetch, .fetch, .forget, .acknowledge "conversion_jobs:1-0", .fail "conversion_jobs:1-0" "boom"]

theorem wellFormed_sameIds : ∀ entry ∈ sameIds, WellFormed "" entry := by
  intro entry hentry
  have hfields : entry.2.2 = guestFields := by
    rcases List.mem_cons.1 hentry with rfl | hentry
    · rfl
    · rw [List.mem_singleton.1 hentry]
  refine ⟨?_, ?_, { deliveredJob with userId := none }, by rw [hfields]; rfl⟩
  · revert entry
    decide
  · revert entry
    decide

theorem delivered_forgottenRun : delivered forgottenRun.1 = sameIds := by decide +kernel

/-- Two deliveries of one id are told apart, also once their streams are forgotten. -/
theorem deliveries_exact_forgotten : delivered forgottenRun.1 = sameIds ∧ DeliversExactly forgottenRun.1 := by
  refine ⟨delivered_forgottenRun, deliveries_exact (calls_playCalls _ _) ?_⟩
  intro call hcall entry hentry
  refine wellFormed_sameIds entry ?_
  rw [← delivered_forgottenRun]
  exact List.mem_flatMap.2 ⟨call, hcall, hentry⟩

end Concrete

end Transform.Queues
