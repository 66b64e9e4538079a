import Transform.Queues.JobStream

/-!
# Queues.JobTopic — what the job streams carry, and what the consumer may do

The topic of the job streams: every entry is a published message, a dead letter names its delivery and makes the same
job.  `fetchJob_spec`, `acknowledgeJob_spec`, `deadLetterJob_spec` and `reclaimStaleJobs_spec` say what the consumer
does under the broker's monitor.
-/

namespace Transform.Queues

open Lib Conversions

/-! ## Delivery keys -/

section Keys

theorem rawMessageId_deliveryKey (stream messageId : String) :
    rawMessageId stream (deliveryKey stream messageId) = messageId := by
  unfold rawMessageId deliveryKey
  simp only [String.toList_append, List.prefix_append, if_true, List.drop_left, String.ofList_toList]

theorem colon_notMem_entryId (n : ℕ) : ':' ∉ (entryId n).toList := by
  intro h
  simp only [entryId, String.toList_append, Nat.toList_repr, List.mem_append] at h
  rcases h with h | h
  · revert h
    decide
  · have hdigit := Nat.isDigit_of_mem_toDigits (by omega) (by omega) h
    revert hdigit
    decide

theorem reverse_deliveryKey (stream messageId : String) : (deliveryKey stream messageId).toList.reverse =
    messageId.toList.reverse ++ (':' :: stream.toList.reverse) := by
  simp [deliveryKey]

theorem ne_colon_of_mem {messageId : String} (hid : ':' ∉ messageId.toList) :
    ∀ c ∈ messageId.toList.reverse, decide (c ≠ ':') = true := by
  intro c hc
  refine decide_eq_true fun h => hid ?_
  rw [← h]
  exact List.mem_reverse.1 hc

theorem takeWhile_deliveryKey (stream : String) {messageId : String} (hid : ':' ∉ messageId.toList) :
    (deliveryKey stream messageId).toList.reverse.takeWhile (· ≠ ':') = messageId.toList.reverse := by
  rw [reverse_deliveryKey, List.takeWhile_append_of_pos (ne_colon_of_mem hid), List.takeWhile_cons_of_neg (by simp),
    List.append_nil]

theorem beforeLastColon_deliveryKey (stream : String) {messageId : String} (hid : ':' ∉ messageId.toList) :
    beforeLastColon (deliveryKey stream messageId) = stream := by
  unfold beforeLastColon
  rw [reverse_deliveryKey, List.dropWhile_append_of_pos (ne_colon_of_mem hid), List.dropWhile_cons_of_neg (by simp),
    List.drop_succ_cons, List.drop_zero, List.reverse_reverse, String.ofList_toList]

theorem deliveryKey_inj_of_ids {stream stream' messageId messageId' : String} (hid : ':' ∉ messageId.toList)
    (hid' : ':' ∉ messageId'.toList) (h : deliveryKey stream messageId = deliveryKey stream' messageId') :
    stream = stream' ∧ messageId = messageId' := by
  have hstream := beforeLastColon_deliveryKey stream hid
  rw [h, beforeLastColon_deliveryKey stream' hid'] at hstream
  have htake := takeWhile_deliveryKey stream hid
  rw [h, takeWhile_deliveryKey stream' hid', List.reverse_inj] at htake
  exact ⟨hstream.symm, (String.toList_injective htake).symm⟩

theorem deliveryKey_inj {stream stream' : String} {n n' : ℕ}
    (h : deliveryKey stream (entryId n) = deliveryKey stream' (entryId n')) : stream = stream' ∧ n = n' := by
  have hkey := deliveryKey_inj_of_ids (colon_notMem_entryId n) (colon_notMem_entryId n') h
  exact ⟨hkey.1, entryId_injective hkey.2⟩

end Keys

/-! ## The topic -/

section Topic

/-- The fields of a message that `publishJob` appended. -/
def IsJobMessage (fields : Fields) : Prop :=
  ∃ job message, ConversionJobMessage.fromConversionJob job = .ok message ∧ fields = message.toDict

/-- The dead letter names the delivery, and a worker would make the same job of it. -/
def IsDeadLetter (key : String) (fields letter : Fields) : Prop :=
  letter.lookup "original_message_id" = some key ∧ buildJob letter = buildJob fields

/-- At least the newest 10 000 dead letters are kept. -/
def deadLetterMaxlen : ℕ := 10000

def jobTopic (slack : ℕ → ℕ) : Topic Fields Fields where
  key := deliveryKey
  IsLetter := IsDeadLetter
  Published := IsJobMessage
  maxlen := deadLetterMaxlen
  slack := slack

theorem jobTopic_naming (slack : ℕ → ℕ) : (jobTopic slack).Naming where
  key := deliveryKey_inj
  letter := by
    intro key key' fields fields' letter h h'
    exact Option.some.inj (h.1.symm.trans h'.1)

/-- The fields `buildJob` reads. -/
def jobFields : List String :=
  ["job_id", "source_format", "target_format", "input_key", "object_key", "user_id", "client_encrypted",
    "data_key_wrapped", "origin"]

theorem buildJob_congr {fields fields' : Fields} (h : ∀ key ∈ jobFields, fields.lookup key = fields'.lookup key) :
    buildJob fields = buildJob fields' := by
  unfold buildJob parseUserId Fields.get
  simp only [h "job_id" (by decide), h "source_format" (by decide), h "target_format" (by decide),
    h "input_key" (by decide), h "object_key" (by decide), h "user_id" (by decide), h "client_encrypted" (by decide),
    h "data_key_wrapped" (by decide), h "origin" (by decide)]

theorem toDict_lookup_extra (message : ConversionJobMessage) : message.toDict.lookup "original_message_id" = none := by
  unfold ConversionJobMessage.toDict
  rcases message.userId with _ | u <;> rcases message.dataKeyWrapped with _ | k <;> rfl

theorem buildJob_isJobMessage {fields : Fields} (h : IsJobMessage fields) :
    ∃ job message, buildJob fields = .ok job ∧ ConversionJobMessage.fromConversionJob job = .ok message ∧
      buildJob message.toDict = .ok job := by
  obtain ⟨job₀, message₀, hm₀, rfl⟩ := h
  have hkey : job₀.objectKey ≠ "" := by
    intro he
    unfold ConversionJobMessage.fromConversionJob at hm₀
    rw [if_pos he] at hm₀
    cases hm₀
  have hbuild := buildJob_toDict hm₀
  generalize hjob : ({
    jobId := job₀.jobId, conversion := job₀.conversion, inputFile := job₀.inputFile, objectKey := job₀.objectKey
    outputFile := some "", status := .pending, userId := job₀.userId, clientEncrypted := job₀.clientEncrypted
    dataKeyWrapped := truthy job₀.dataKeyWrapped, origin := job₀.origin } : ConversionJob) = job at hbuild
  have hkey' : job.objectKey ≠ "" := by
    rw [← hjob]
    exact hkey
  have hm : ConversionJobMessage.fromConversionJob job = .ok _ := if_neg hkey'
  refine ⟨job, _, hbuild, hm, (buildJob_toDict hm).trans ?_⟩
  have htruthy : truthy (truthy job₀.dataKeyWrapped) = truthy job₀.dataKeyWrapped := by
    unfold truthy
    rw [Option.filter_filter]
    simp
  rw [← hjob]
  simp only [htruthy]

theorem isDeadLetter_deadLetterFields {fields : Fields} {job : ConversionJob} {message : ConversionJobMessage}
    (hbuild : buildJob message.toDict = .ok job) (hfields : buildJob fields = .ok job) (error key : String) :
    IsDeadLetter key fields (deadLetterFields message error key) := by
  constructor
  · unfold deadLetterFields
    rw [List.lookup_append, toDict_lookup_extra]
    rfl
  · rw [hfields, ← hbuild]
    refine buildJob_congr fun name hname => ?_
    unfold deadLetterFields
    rw [List.lookup_append]
    have hother : List.lookup name [("error", error), ("original_message_id", key)] = none := by
      fin_cases hname <;> rfl
    rw [hother, Option.or_none]

end Topic

/-! ## What the consumer does -/

section Consumer

variable {slack : ℕ → ℕ} {g : Known Fields Fields} {c : JobStreamConsumer}

abbrev queueMonitor (slack : ℕ → ℕ) : Monitor QueueSig (Known Fields Fields) :=
  brokerMonitor ConversionJob PyError (jobTopic slack)

/-- A delivered message, with the key the consumer handed out and the job it made of it. -/
def Delivered (g : Known Fields Fields) (c : JobStreamConsumer) (key : String) (job : ConversionJob) : Prop :=
  ∃ stream messageId fields, (stream, messageId, fields) ∈ g.held ∧ IsJobMessage fields ∧ buildJob fields = .ok job ∧
    key = deliveryKey stream messageId ∧ c.messageStreams.lookup key = some stream

def Buffered (g : Known Fields Fields) (c : JobStreamConsumer) : Prop :=
  ∀ delivery ∈ c.buffer, delivery ∈ g.held ∧ IsJobMessage delivery.2.2

theorem buffered_step (ev : Event QueueSig) (h : Buffered g c) : Buffered (g.step ev) c :=
  fun delivery hm => ⟨held_step ev delivery (h delivery hm).1, (h delivery hm).2⟩

theorem buildDelivery_spec {stream messageId : String} {fields : Fields} (hheld : (stream, messageId, fields) ∈ g.held)
    (hmessage : IsJobMessage fields) (hbuf : Buffered g c) :
    wps (queueMonitor slack) (buildDelivery stream messageId fields)
      (fun r c g => Buffered g c ∧ Delivered g c r.1 r.2) (fun _ c g => Buffered g c) c g := by
  unfold buildDelivery
  obtain ⟨job, message, hbuild, -, -⟩ := buildJob_isJobMessage hmessage
  simp only [wps_bind, wps_modify, wps_act, hbuild, wpe_ofExcept_ok, wps_pure]
  refine ⟨hbuf, stream, messageId, fields, hheld, hmessage, hbuild, rfl, ?_⟩
  simp [List.lookup]

theorem fetchJob_spec (hbuf : Buffered g c) :
    wps (queueMonitor slack) fetchJob
      (fun r c g => Buffered g c ∧ ∀ key job, r = some (key, job) → Delivered g c key job)
      (fun _ c g => Buffered g c) c g := by
  unfold fetchJob
  simp only [wps_bind, wps_get]
  rcases hb : c.buffer with _ | ⟨⟨stream, messageId, fields⟩, buffer⟩
  · unfold readJobs
    simp only [wps_bind, wps_get, wps_act]
    refine wpe_ask.2 ⟨trivial, fun reply hreply => ?_, fun e took hk _ => buffered_step _ hbuf⟩
    rcases reply with _ | ⟨⟨stream, messageId, fields⟩, deliveries⟩
    · exact ⟨buffered_step _ hbuf, fun key job h => (by cases h)⟩
    · simp only [wps_bind, wps_modify]
      refine wps_mono (buildDelivery_spec (List.mem_cons_self ..) (hreply _ (List.mem_cons_self ..)).2 ?_) ?_ ?_
      · intro delivery hm
        rcases List.mem_append.1 hm with hm | hm
        · exact buffered_step _ hbuf delivery hm
        · have hin := List.mem_cons_of_mem (stream, messageId, fields) hm
          exact ⟨List.mem_append_left _ hin, (hreply delivery hin).2⟩
      · rintro ⟨key, job⟩ c' g' ⟨hbuf', hdel⟩
        refine ⟨hbuf', fun key' job' h => ?_⟩
        cases h
        exact hdel
      · exact fun _ _ _ h => h
  · have hhead := hbuf (stream, messageId, fields) (by rw [hb]; exact List.mem_cons_self ..)
    simp only [wps_bind, wps_modify]
    refine wps_mono (buildDelivery_spec hhead.1 hhead.2 ?_) ?_ ?_
    · intro delivery hm
      exact hbuf delivery (by rw [hb]; exact List.mem_cons_of_mem _ hm)
    · rintro ⟨key, job⟩ c' g' ⟨hbuf', hdel⟩
      refine ⟨hbuf', fun key' job' h => ?_⟩
      cases h
      exact hdel
    · exact fun _ _ _ h => h

theorem acknowledgeJob_spec {key : String} {job : ConversionJob} (hbuf : Buffered g c) (hdel : Delivered g c key job)
    (hdone : ∀ stream messageId fields, (stream, messageId, fields) ∈ g.held → key = deliveryKey stream messageId →
      buildJob fields = .ok job → g.Done (jobTopic slack) stream messageId) :
    wps (queueMonitor slack) (acknowledgeJob key) (fun _ c g => Buffered g c) (fun _ c g => Buffered g c) c g := by
  obtain ⟨stream, messageId, fields, hheld, -, hbuild, hkey, hlookup⟩ := hdel
  have hstream : c.streamOf key = stream := by
    unfold JobStreamConsumer.streamOf
    rw [hlookup]
  have hraw : rawMessageId stream key = messageId := by
    rw [hkey, rawMessageId_deliveryKey]
  unfold acknowledgeJob streamForMessage
  simp only [wps_bind, wps_get, wps_modify, wps_pure, wps_act, hstream]
  refine wpe_ask.2 ⟨?_, fun _ _ => ?_, fun _ took hk _ => ?_⟩
  · show g.Done (jobTopic slack) stream (rawMessageId stream key)
    rw [hraw]
    exact hdone stream messageId fields hheld hkey hbuild
  · exact buffered_step _ hbuf
  · exact buffered_step _ hbuf

theorem deadLetterJob_spec {key error : String} {job : ConversionJob} (hdel : Delivered g c key job)
    {Q : Known Fields Fields → Prop}
    (hQ : ∀ letter, (∀ fields, buildJob fields = .ok job → IsDeadLetter key fields letter) →
      Q { g with letters := letter :: g.letters }) :
    wpe (queueMonitor slack) (deadLetterJob key error job) (fun _ => Q) (fun _ => Q) g := by
  obtain ⟨stream, messageId, fields, hheld, hmessage, hbuild, hkey, -⟩ := hdel
  obtain ⟨job', message, hbuild', hm, hagain⟩ := buildJob_isJobMessage hmessage
  obtain rfl : job = job' := Except.ok.inj (hbuild.symm.trans hbuild')
  have hletter : ∀ fields', buildJob fields' = .ok job →
      IsDeadLetter key fields' (deadLetterFields message error key) :=
    fun fields' h => isDeadLetter_deadLetterFields hagain h error key
  unfold deadLetterJob
  simp only [wpe_bind, hm, wpe_ofExcept_ok]
  refine wpe_ask.2 ⟨⟨stream, messageId, fields, hheld, ?_⟩, fun _ _ => ?_, fun _ took hk htook => ?_⟩
  · show IsDeadLetter (deliveryKey stream messageId) fields _
    rw [← hkey]
    exact hletter fields hbuild
  · exact hQ _ hletter
  · obtain rfl : took = true := htook
    exact hQ _ hletter

/-- Re-queueing a claimed entry acknowledges it only after its copy. -/
theorem requeue_spec {stream messageId : String} {fields : Fields} (hheld : (stream, messageId, fields) ∈ g.held)
    {Q : Known Fields Fields → Prop} (hQ : ∀ g', (∀ delivery ∈ g.held, delivery ∈ g'.held) → Q g') :
    wpe (queueMonitor slack) (requeue stream messageId fields) (fun _ => Q) (fun _ => Q) g := by
  unfold requeue
  simp only [wpe_bind, wpe_tryCatch, redis]
  refine wpe_ask.2 ⟨hheld, fun _ _ => ?_, fun _ took hk _ => ?_⟩
  · simp only [wpe_pure, if_true, wpe_bind, ackOriginal, wpe_tryCatch, redis]
    refine wpe_ask.2 ⟨⟨fields, hheld, .inr (.inr (List.mem_cons_self ..))⟩, fun _ _ => ?_, fun _ took hk _ => ?_⟩
    · exact hQ _ fun _ h => h
    · exact hQ _ fun _ h => h
  · exact hQ _ (held_step _)

theorem requeueAll_spec (stream : String) : ∀ (entries : List (String × Fields)) {g : Known Fields Fields},
    (∀ entry ∈ entries, (stream, entry) ∈ g.held) → ∀ {Q : Known Fields Fields → Prop},
    (∀ g', (∀ delivery ∈ g.held, delivery ∈ g'.held) → Q g') →
    wpe (queueMonitor slack) (requeueAll stream entries) (fun _ => Q) (fun _ => Q) g
  | [], _, _, _, hQ => hQ _ fun _ h => h
  | (messageId, fields) :: entries, _, hheld, _, hQ => by
    unfold requeueAll
    simp only [wpe_bind]
    refine wpe_mono (requeue_spec (hheld _ (List.mem_cons_self ..)) (Q := fun g' => ∀ delivery, _ → delivery ∈ g'.held)
      fun g' h => h) (fun _ g' hg' => ?_) (fun _ g' hg' => hQ g' hg')
    exact wpe_mono (requeueAll_spec stream entries (fun entry he => hg' _ (hheld entry (List.mem_cons_of_mem _ he)))
      (Q := _) fun g'' hg'' => hQ g'' fun d hd => hg'' d (hg' d hd)) (fun _ _ h => h) fun _ _ h => h

theorem reclaimStreams_spec (minIdleMs count : ℕ) : ∀ (streams : List String) {g : Known Fields Fields}
    {Q : Known Fields Fields → Prop}, (∀ g', (∀ delivery ∈ g.held, delivery ∈ g'.held) → Q g') →
    wpe (queueMonitor slack) (reclaimStreams minIdleMs count streams) (fun _ => Q) (fun _ => Q) g
  | [], _, _, hQ => hQ _ fun _ h => h
  | stream :: streams, g, Q, hQ => by
    have rest : ∀ g', (∀ delivery ∈ g.held, delivery ∈ g'.held) →
        wpe (queueMonitor slack) (reclaimStreams minIdleMs count streams) (fun _ => Q) (fun _ => Q) g' :=
      fun g' hg' => reclaimStreams_spec minIdleMs count streams fun g'' hg'' => hQ g'' fun d hd => hg'' d (hg' d hd)
    have all : ∀ (entries : List (String × Fields)) g', (∀ delivery ∈ g.held, delivery ∈ g'.held) →
        (∀ entry ∈ entries, (stream, entry) ∈ g'.held) →
        wpe (queueMonitor slack) (requeueAll stream entries)
          (fun _ g' => ∀ delivery ∈ g.held, delivery ∈ g'.held) (fun _ => Q) g' := by
      intro entries g' hg' hentries
      refine wpe_mono (requeueAll_spec stream entries hentries (Q := fun g'' => ∀ d ∈ g.held, d ∈ g''.held)
        fun g'' hg'' d hd => hg'' d (hg' d hd)) (fun _ _ h => h) fun _ g'' hg'' => hQ g'' hg''
    unfold reclaimStreams reclaimStream
    simp only [wpe_bind, wpe_tryCatch, redis]
    refine wpe_ask.2 ⟨trivial, fun reply _ => ?_, fun _ took hk _ => ?_⟩
    · rw [wpe_pure]
      refine wpe_mono (all reply.entries _ (held_step _) fun entry he => ?_) (fun _ g' hg' => ?_) fun _ _ h => h
      · exact List.mem_append_left _ (List.mem_map_of_mem he)
      · exact wpe_mono (rest g' hg') (fun _ _ h => h) fun _ _ h => h
    · rw [wpe_pure]
      refine wpe_mono (all [] _ (held_step _) fun entry he => (by cases he)) (fun _ g' hg' => ?_) fun _ _ h => h
      exact wpe_mono (rest g' hg') (fun _ _ h => h) fun _ _ h => h

theorem reclaimStaleJobs_spec {minIdleMs count : ℕ} (hbuf : Buffered g c) :
    wps (queueMonitor slack) (reclaimStaleJobs minIdleMs count) (fun _ c g => Buffered g c)
      (fun _ c g => Buffered g c) c g := by
  unfold reclaimStaleJobs
  simp only [wps_bind, wps_get, wps_act]
  exact reclaimStreams_spec minIdleMs count c.streams (Q := fun g' => Buffered g' c) fun g' hg' delivery hd =>
    ⟨hg' _ (hbuf delivery hd).1, (hbuf delivery hd).2⟩

end Consumer

end Transform.Queues
