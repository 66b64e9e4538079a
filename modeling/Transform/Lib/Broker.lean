import Transform.Lib.Interleave
import Transform.Lib.StreamGroup

/-!
# Lib.Broker — programs that publish to, and consume from, streams with a consumer group

The operations of the publishers and the workers of a group of streams, the world they share, and a monitor that
says when a program may acknowledge an entry: after its processing returned, its failure was recorded, or a copy of
it was appended to its stream.  `leaving_settled` is the law of every run of such programs; `leaving_held` is the same
where the records of failures are looked up in the bounded stream that holds them.
-/

namespace Transform.Lib

/-! ## The operations -/

section Operations

/-- A claim's reply: whether the client hands it over as a tuple, and the entries with their ids. -/
structure ClaimReply (F : Type) where
  isTuple : Bool
  entries : List (String × F)

/-- Entries have fields `F`, records of failures `D`, and the unit of work made of an entry is a `J`.  `process` names
the delivery its work was made of, and `republish` the entry it copies. -/
inductive BrokerOp (F D J : Type)
  | append (stream : String) (fields : F)
  | readGroup (streams : List String)
  | process (key : String) (job : J)
  | deadLetter (letter : D)
  | ack (stream id : String)
  | autoClaim (stream : String) (minIdleMs count : ℕ)
  | republish (stream id : String) (fields : F)
  | monotonic

abbrev BrokerOp.Ans {F D J : Type} : BrokerOp F D J → Type
  | .readGroup _ => List (String × String × F)
  | .autoClaim _ _ _ => ClaimReply F
  | .monotonic => ℕ
  | .append _ _ | .process _ _ | .deadLetter _ | .ack _ _ | .republish _ _ _ => Unit

/-- The signature of a broker whose failing calls raise an `E`. -/
abbrev BrokerSig (F D J E : Type) : Sig := ⟨BrokerOp F D J, BrokerOp.Ans, E⟩

end Operations

/-! ## The world -/

section World

/-- The streams and the stream of failures.  Beside them, the deliveries whose processing returned, and the copies: of
which stream and id, and at which place. -/
structure BrokerWorld (F D : Type) where
  groups : String → Group F := fun _ => .empty
  dead : Trimmed D := {}
  returned : List String := []
  copies : List (String × String × ℕ) := []

/-- How deliveries are named, which record of a failure is that of a named message, what is published, and the bound of
the stream of failures, with what its trimming leaves beside. -/
structure Topic (F D : Type) where
  key : String → String → String
  IsLetter : String → F → D → Prop
  Published : F → Prop
  maxlen : ℕ
  slack : ℕ → ℕ

variable {F D J E : Type}

namespace BrokerWorld

variable (w : BrokerWorld F D)

def onGroup (stream : String) (f : Group F → Group F) : BrokerWorld F D :=
  { w with groups := Function.update w.groups stream (f (w.groups stream)) }

/-- The reply to a read: the next entry of each stream that has one. -/
def next (streams : List String) : List (String × String × F) :=
  streams.filterMap fun stream => (w.groups stream).next.map fun entry => (stream, entry)

def IsPending (stream id : String) (fields : F) : Prop :=
  ∃ n ∈ (w.groups stream).pending, id = entryId n ∧ (w.groups stream).entries[n]? = some fields

/-- The outcomes a broker may give. -/
def Allowed : Event (BrokerSig F D J E) → Prop
  | ⟨.readGroup streams, .ok reply, _, _⟩ => reply = w.next streams
  | ⟨.autoClaim stream _ count, .ok reply, _, _⟩ =>
    reply.entries.length ≤ count ∧ ∀ entry ∈ reply.entries, w.IsPending stream entry.1 entry.2
  | _ => True

/-- What an exchange does. -/
def apply (T : Topic F D) : Event (BrokerSig F D J E) → BrokerWorld F D
  | ⟨.append stream fields, _, true, _⟩ => w.onGroup stream (·.append fields)
  | ⟨.readGroup streams, _, true, _⟩ =>
    { w with groups := fun stream => if stream ∈ streams then (w.groups stream).deliver else w.groups stream }
  | ⟨.process key _, .ok _, _, _⟩ => { w with returned := key :: w.returned }
  | ⟨.deadLetter letter, _, true, _⟩ => { w with dead := w.dead.push T.maxlen T.slack letter }
  | ⟨.ack stream id, _, true, _⟩ => w.onGroup stream (·.ack id)
  | ⟨.republish stream id fields, _, true, _⟩ =>
    { w.onGroup stream (·.append fields) with
      copies := (stream, id, (w.groups stream).entries.length) :: w.copies }
  | _ => w

/-- The message at place `n` of the stream may leave the pending entries: its processing returned, its failure is among
the records, or a copy of it stands later in its stream. -/
def Settled (T : Topic F D) (records : List D) (stream : String) (n : ℕ) : Prop :=
  T.key stream (entryId n) ∈ w.returned ∨
  (∃ fields, (w.groups stream).entries[n]? = some fields ∧
    ∃ letter ∈ records, T.IsLetter (T.key stream (entryId n)) fields letter) ∨
  ∃ m, n < m ∧ (stream, entryId n, m) ∈ w.copies ∧ (w.groups stream).entries[m]? = (w.groups stream).entries[n]?

end BrokerWorld

/-- Programs of the kinds `runs` over one broker. -/
def broker (J E : Type) (T : Topic F D) {Tag : Type} (runs : Tag → Proc (BrokerSig F D J E) Unit → Prop) :
    Sys (BrokerSig F D J E) where
  World := BrokerWorld F D
  Tag := Tag
  spawn w _ tag p w' := runs tag p ∧ w' = w
  Allowed w _ _ ev := w.Allowed ev
  apply w _ _ ev := w.apply T ev

/-- Every entry that leaves the pending entries in a step is settled, in the records of failures given. -/
def LeavesSettled (T : Topic F D) (records : BrokerWorld F D → List D) (w w' : BrokerWorld F D) : Prop :=
  ∀ stream n, n ∈ (w.groups stream).pending → n ∉ (w'.groups stream).pending → w'.Settled T (records w') stream n

end World

/-! ## What a program knows -/

section Known

variable {F D J E : Type}

/-- What a program has seen: entries delivered to it, processing that returned, failures it recorded, and entries it
copied. -/
structure Known (F D : Type) where
  held : List (String × String × F) := []
  returned : List String := []
  letters : List D := []
  copied : List (String × String × F) := []

namespace Known

def step (g : Known F D) : Event (BrokerSig F D J E) → Known F D
  | ⟨.readGroup _, .ok reply, _, _⟩ => { g with held := reply ++ g.held }
  | ⟨.autoClaim stream _ _, .ok reply, _, _⟩ =>
    { g with held := reply.entries.map (fun entry => (stream, entry)) ++ g.held }
  | ⟨.process key _, .ok _, _, _⟩ => { g with returned := key :: g.returned }
  | ⟨.deadLetter letter, _, true, _⟩ => { g with letters := letter :: g.letters }
  | ⟨.republish stream id fields, _, true, _⟩ => { g with copied := (stream, id, fields) :: g.copied }
  | _ => g

/-- An entry a program may acknowledge. -/
def Done (T : Topic F D) (g : Known F D) (stream id : String) : Prop :=
  ∃ fields, (stream, id, fields) ∈ g.held ∧
    (T.key stream id ∈ g.returned ∨ (∃ letter ∈ g.letters, T.IsLetter (T.key stream id) fields letter) ∨
      (stream, id, fields) ∈ g.copied)

end Known

/-- Watches a program of the broker, where every record of a failure that is written is stored. -/
def brokerMonitor (J E : Type) (T : Topic F D) : Monitor (BrokerSig F D J E) (Known F D) where
  pre g op := match op with
    | .append _ fields => T.Published fields
    | .deadLetter letter => ∃ stream id fields, (stream, id, fields) ∈ g.held ∧
        T.IsLetter (T.key stream id) fields letter
    | .ack stream id => g.Done T stream id
    | .republish stream id fields => (stream, id, fields) ∈ g.held
    | _ => True
  rely _ ev := match ev with
    | ⟨.readGroup streams, .ok reply, _, _⟩ => ∀ entry ∈ reply, entry.1 ∈ streams ∧ T.Published entry.2.2
    | ⟨.autoClaim _ _ _, .ok reply, _, _⟩ => ∀ entry ∈ reply.entries, T.Published entry.2
    | ⟨.deadLetter _, _, took, _⟩ => took = true
    | _ => True
  step := Known.step

/-- What a program knows is so. -/
structure Known.Valid (g : Known F D) (w : BrokerWorld F D) : Prop where
  held : ∀ stream id fields, (stream, id, fields) ∈ g.held →
    ∃ n, id = entryId n ∧ n < (w.groups stream).delivered ∧ (w.groups stream).entries[n]? = some fields
  returned : ∀ key ∈ g.returned, key ∈ w.returned
  letters : ∀ letter ∈ g.letters, letter ∈ w.dead.log
  copied : ∀ stream id fields, (stream, id, fields) ∈ g.copied →
    ∃ n m, id = entryId n ∧ n < m ∧ (stream, id, m) ∈ w.copies ∧ (w.groups stream).entries[m]? = some fields

end Known

/-! ## What an exchange keeps -/

section Exchanges

variable {F D J E : Type} {T : Topic F D} {w w' : BrokerWorld F D} {g : Known F D}
  {ev : Event (BrokerSig F D J E)} {stream : String}

structure BrokerWorld.Grows (w w' : BrokerWorld F D) : Prop where
  entries : ∀ stream, (w.groups stream).entries <+: (w'.groups stream).entries
  delivered : ∀ stream, (w.groups stream).delivered ≤ (w'.groups stream).delivered
  returned : ∀ key ∈ w.returned, key ∈ w'.returned
  log : ∀ letter ∈ w.dead.log, letter ∈ w'.dead.log
  copies : ∀ copy ∈ w.copies, copy ∈ w'.copies

theorem getElem?_of_prefix {l l' : List F} (h : l <+: l') {n : ℕ} {a : F} (hn : l[n]? = some a) : l'[n]? = some a := by
  obtain ⟨hlt, rfl⟩ := List.getElem?_eq_some_iff.1 hn
  exact List.prefix_iff_getElem?.1 h n hlt

theorem grows_refl : w.Grows w :=
  ⟨fun _ => List.prefix_refl _, fun _ => Nat.le_refl _, fun _ h => h, fun _ h => h, fun _ h => h⟩

theorem grows_onGroup {f : Group F → Group F} (hentries : (w.groups stream).entries <+: (f (w.groups stream)).entries)
    (hdelivered : (w.groups stream).delivered ≤ (f (w.groups stream)).delivered) : w.Grows (w.onGroup stream f) := by
  refine ⟨fun s => ?_, fun s => ?_, fun _ h => h, fun _ h => h, fun _ h => h⟩
  · by_cases hs : s = stream
    · subst hs
      simpa [BrokerWorld.onGroup] using hentries
    · simp [BrokerWorld.onGroup, hs]
  · by_cases hs : s = stream
    · subst hs
      simpa [BrokerWorld.onGroup] using hdelivered
    · simp [BrokerWorld.onGroup, hs]

theorem entries_ack (id s : String) : ((w.onGroup stream (·.ack id)).groups s).entries = (w.groups s).entries := by
  by_cases hs : s = stream
  · subst hs
    simp [BrokerWorld.onGroup]
  · simp [BrokerWorld.onGroup, hs]

theorem grows_append (fields : F) : w.Grows (w.onGroup stream (·.append fields)) :=
  grows_onGroup (List.prefix_append _ _) (Nat.le_refl _)

theorem grows_deliver (streams : List String) : w.Grows
    { w with groups := fun stream => if stream ∈ streams then (w.groups stream).deliver else w.groups stream } := by
  refine ⟨fun s => ?_, fun s => ?_, fun _ h => h, fun _ h => h, fun _ h => h⟩
  · dsimp only
    split_ifs
    · rw [Group.deliver_entries]
    · exact List.prefix_refl _
  · dsimp only
    split_ifs
    · exact Group.le_deliver
    · exact Nat.le_refl _

theorem grows_apply : w.Grows (w.apply T ev) := by
  unfold BrokerWorld.apply
  split
  · exact grows_append _
  · exact grows_deliver _
  · exact ⟨fun _ => List.prefix_refl _, fun _ => Nat.le_refl _, fun _ h => List.mem_cons_of_mem _ h, fun _ h => h,
      fun _ h => h⟩
  · exact ⟨fun _ => List.prefix_refl _, fun _ => Nat.le_refl _, fun _ h => h,
      fun _ h => List.mem_append_left _ h, fun _ h => h⟩
  · exact grows_onGroup (List.prefix_refl _) (Nat.le_refl _)
  · exact ⟨(grows_append _).entries, (grows_append _).delivered, fun _ h => h, fun _ h => h,
      fun _ h => List.mem_cons_of_mem _ h⟩
  · exact grows_refl

theorem valid_nothing : ({} : Known F D).Valid w :=
  ⟨fun _ _ _ h => (by cases h), fun _ h => (by cases h), fun _ h => (by cases h), fun _ _ _ h => (by cases h)⟩

/-- What is known stays so. -/
theorem valid_grows (hg : g.Valid w) (h : w.Grows w') : g.Valid w' := by
  refine ⟨fun s id fields hm => ?_, fun key hk => h.returned key (hg.returned key hk),
    fun letter hl => h.log letter (hg.letters letter hl), fun s id fields hm => ?_⟩
  · obtain ⟨n, hid, hn, hf⟩ := hg.held s id fields hm
    exact ⟨n, hid, Nat.lt_of_lt_of_le hn (h.delivered s), getElem?_of_prefix (h.entries s) hf⟩
  · obtain ⟨n, m, hid, hnm, hc, hf⟩ := hg.copied s id fields hm
    exact ⟨n, m, hid, hnm, h.copies _ hc, getElem?_of_prefix (h.entries s) hf⟩

theorem mem_next {streams : List String} {id : String} {fields : F} (h : (stream, id, fields) ∈ w.next streams) :
    stream ∈ streams ∧ (w.groups stream).next = some (id, fields) := by
  obtain ⟨s, hs, he⟩ := List.mem_filterMap.1 h
  obtain ⟨entry, hn, he⟩ := Option.map_eq_some_iff.1 he
  cases he
  exact ⟨hs, hn⟩

/-- A program only ever comes to know more. -/
theorem held_step (ev : Event (BrokerSig F D J E)) : ∀ delivery ∈ g.held, delivery ∈ (g.step ev).held := by
  obtain ⟨op, out, took, hk⟩ := ev
  intro delivery hm
  cases op with
  | readGroup streams =>
    rcases out with e | reply
    · exact hm
    · exact List.mem_append_right _ hm
  | autoClaim stream idle count =>
    rcases out with e | reply
    · exact hm
    · exact List.mem_append_right _ hm
  | process key job =>
    rcases out with e | a
    · exact hm
    · exact hm
  | deadLetter letter =>
    rcases took with _ | _
    · exact hm
    · exact hm
  | republish stream id fields =>
    rcases took with _ | _
    · exact hm
    · exact hm
  | _ => exact hm

/-- What a program learns from an exchange is so after it. -/
theorem valid_step (hg : g.Valid w) (hpre : (brokerMonitor J E T).pre g ev.op) (hall : w.Allowed ev) :
    (g.step ev).Valid (w.apply T ev) := by
  have hgrows : w.Grows (w.apply T ev) := grows_apply
  have hkept := valid_grows hg hgrows
  obtain ⟨op, out, took, hk⟩ := ev
  cases op with
  | readGroup streams =>
    rcases out with e | reply
    · exact hkept
    · obtain rfl : took = true := hk reply rfl
      obtain rfl : reply = w.next streams := hall
      refine ⟨fun s id fields hm => ?_, hkept.returned, hkept.letters, hkept.copied⟩
      rcases List.mem_append.1 hm with hm | hm
      · obtain ⟨hs, hn⟩ := mem_next hm
        obtain ⟨hid, hf, hlt⟩ := Group.next_some hn
        have hgroup : ((w.apply T ⟨.readGroup streams, .ok (w.next streams), true, hk⟩).groups s) =
            (w.groups s).deliver := if_pos hs
        rw [hgroup, Group.deliver_entries]
        exact ⟨_, hid, hlt, hf⟩
      · exact hkept.held s id fields hm
  | autoClaim stream idle count =>
    rcases out with e | reply
    · exact hkept
    · refine ⟨fun s id fields hm => ?_, hkept.returned, hkept.letters, hkept.copied⟩
      rcases List.mem_append.1 hm with hm | hm
      · obtain ⟨entry, hentry, he⟩ := List.mem_map.1 hm
        cases he
        obtain ⟨n, hn, hid, hf⟩ := hall.2 _ hentry
        exact ⟨n, hid, (w.groups stream).pending_lt n hn, hf⟩
      · exact hkept.held s id fields hm
  | process key job =>
    rcases out with e | a
    · exact hkept
    · refine ⟨hkept.held, fun key' hm => ?_, hkept.letters, hkept.copied⟩
      rcases List.mem_cons.1 hm with rfl | hm
      · exact List.mem_cons_self ..
      · exact hkept.returned key' hm
  | deadLetter letter =>
    rcases took with _ | _
    · exact hkept
    · refine ⟨hkept.held, hkept.returned, fun letter' hm => ?_, hkept.copied⟩
      rcases List.mem_cons.1 hm with rfl | hm
      · exact List.mem_append_right _ (List.mem_singleton.2 rfl)
      · exact hkept.letters letter' hm
  | republish stream id fields =>
    rcases took with _ | _
    · exact hkept
    · refine ⟨hkept.held, hkept.returned, hkept.letters, fun s id' fields' hm => ?_⟩
      rcases List.mem_cons.1 hm with he | hm
      · cases he
        obtain ⟨n, hid, hn, -⟩ := hg.held stream id fields hpre
        refine ⟨n, (w.groups stream).entries.length, hid, Nat.lt_of_lt_of_le hn (w.groups stream).delivered_le,
          List.mem_cons_self .., ?_⟩
        have hgroup : ((w.apply T ⟨.republish stream id fields, out, true, hk⟩).groups stream) =
            (w.groups stream).append fields := Function.update_self ..
        rw [hgroup]
        simp
      · exact hkept.copied s id' fields' hm
  | append stream fields => exact hkept
  | ack stream id => exact hkept
  | monotonic => exact hkept

/-- A step makes an entry leave only by its acknowledgement. -/
theorem acked_of_left {n : ℕ} (hin : n ∈ (w.groups stream).pending) (hout : n ∉ ((w.apply T ev).groups stream).pending) :
    ev.op = .ack stream (entryId n) ∧ (w.apply T ev) = w.onGroup stream (·.ack (entryId n)) := by
  have update : ∀ (s : String) (f : Group F → Group F), n ∉ ((w.onGroup s f).groups stream).pending →
      s = stream ∧ n ∉ (f (w.groups stream)).pending := by
    intro s f h
    by_cases hs : stream = s
    · subst hs
      exact ⟨rfl, by simpa [BrokerWorld.onGroup] using h⟩
    · exact absurd (by simpa [BrokerWorld.onGroup, hs] using hin) h
  obtain ⟨op, out, took, hk⟩ := ev
  rcases took with _ | _
  · cases op with
    | process key job =>
      rcases out with e | a
      · exact absurd hin hout
      · exact absurd hin hout
    | _ => exact absurd hin hout
  · cases op with
    | ack s id =>
      obtain ⟨rfl, hn⟩ := update s (·.ack id) hout
      obtain rfl : entryId n = id := by
        by_contra hne
        exact hn (Group.mem_ack.2 ⟨hin, hne⟩)
      exact ⟨rfl, rfl⟩
    | append s fields =>
      obtain ⟨-, hn⟩ := update s (·.append fields) hout
      exact absurd hin hn
    | republish s id fields =>
      obtain ⟨-, hn⟩ := update s (·.append fields) hout
      exact absurd hin hn
    | readGroup streams =>
      refine absurd ?_ hout
      show n ∈ (if stream ∈ streams then (w.groups stream).deliver else w.groups stream).pending
      split_ifs
      · exact Group.mem_deliver.2 (.inl hin)
      · exact hin
    | process key job =>
      rcases out with e | a
      · exact absurd hin hout
      · exact absurd hin hout
    | _ => exact absurd hin hout

/-- **One step**: an entry that a program may acknowledge is settled in everything recorded. -/
theorem leaves_settled (hg : g.Valid w) (hpre : (brokerMonitor J E T).pre g ev.op) :
    LeavesSettled T (fun w => w.dead.log) w (w.apply T ev) := by
  intro stream n hin hout
  obtain ⟨hop, happly⟩ := acked_of_left hin hout
  rw [hop] at hpre
  obtain ⟨fields, hheld, hdone⟩ := hpre
  obtain ⟨n', hid, -, hf⟩ := hg.held _ _ _ hheld
  obtain rfl : n = n' := entryId_injective hid
  have hentries : ((w.apply T ev).groups stream).entries = (w.groups stream).entries := by
    rw [happly, entries_ack]
  unfold BrokerWorld.Settled
  rw [hentries]
  rcases hdone with hr | ⟨letter, hl, his⟩ | hc
  · exact .inl (by rw [happly]; exact hg.returned _ hr)
  · exact .inr (.inl ⟨fields, hf, letter, by rw [happly]; exact hg.letters _ hl, his⟩)
  · obtain ⟨n', m, hid, hnm, hcopy, hm⟩ := hg.copied _ _ _ hc
    obtain rfl : n = n' := entryId_injective hid
    exact .inr (.inr ⟨m, hnm, by rw [happly]; exact hcopy, hm.trans hf.symm⟩)

end Exchanges

/-! ## Any interleaving -/

section Runs

variable {F D J E : Type} {T : Topic F D} {Tag : Type} {runs : Tag → Proc (BrokerSig F D J E) Unit → Prop}
  {w : BrokerWorld F D} {g : Known F D} {ev : Event (BrokerSig F D J E)}

def AllPublished (T : Topic F D) (w : BrokerWorld F D) : Prop :=
  ∀ stream, ∀ fields ∈ (w.groups stream).entries, T.Published fields

/-- A running program keeps to the monitor from something it knows. -/
def Watched (T : Topic F D) (w : BrokerWorld F D) (_ : ℕ) (_ : Tag) (p : Proc (BrokerSig F D J E) Unit) : Prop :=
  ∃ g : Known F D, g.Valid w ∧ wp (brokerMonitor J E T) p (fun _ _ => True) g

/-- The record of a failure that is written is stored. -/
def Stored (_ : (broker J E T runs).Config) (_ : ℕ) (_ : Tag) : Event (BrokerSig F D J E) → Prop
  | ⟨.deadLetter _, _, took, _⟩ => took = true
  | _ => True

theorem published_of_mem (hI : AllPublished T w) {stream : String} {n : ℕ} {fields : F}
    (h : (w.groups stream).entries[n]? = some fields) : T.Published fields :=
  hI stream fields (List.mem_of_getElem? h)

theorem broker_relied {c : (broker J E T runs).Config} {i : ℕ} {tag : Tag} (hI : AllPublished T c.world)
    (hall : BrokerWorld.Allowed c.world ev) (hφ : Stored c i tag ev) : (brokerMonitor J E T).rely g ev := by
  obtain ⟨op, out, took, hk⟩ := ev
  cases op with
  | readGroup streams =>
    rcases out with e | reply
    · trivial
    · obtain rfl : reply = c.world.next streams := hall
      rintro ⟨s, id, fields⟩ hm
      obtain ⟨hs, hn⟩ := mem_next hm
      obtain ⟨-, hf, -⟩ := Group.next_some hn
      exact ⟨hs, published_of_mem hI hf⟩
  | autoClaim stream idle count =>
    rcases out with e | reply
    · trivial
    · intro entry hm
      obtain ⟨n, -, -, hf⟩ := hall.2 entry hm
      exact published_of_mem hI hf
  | deadLetter letter => exact hφ
  | _ => trivial

theorem allPublished_apply (hI : AllPublished T w) (hg : g.Valid w) (hpre : (brokerMonitor J E T).pre g ev.op) :
    AllPublished T (w.apply T ev) := by
  have append : ∀ (stream : String) (fields : F), T.Published fields →
      AllPublished T (w.onGroup stream (·.append fields)) := by
    intro stream fields hp s f hf
    by_cases hs : s = stream
    · subst hs
      have hf : f ∈ (w.groups s).entries ++ [fields] := by simpa [BrokerWorld.onGroup] using hf
      rcases List.mem_append.1 hf with hf | hf
      · exact hI s f hf
      · obtain rfl : f = fields := List.mem_singleton.1 hf
        exact hp
    · exact hI s f (by simpa [BrokerWorld.onGroup, hs] using hf)
  unfold BrokerWorld.apply
  split
  · exact append _ _ hpre
  · intro s f hf
    refine hI s f ?_
    dsimp only at hf
    split_ifs at hf
    · rwa [Group.deliver_entries] at hf
    · exact hf
  · exact hI
  · exact hI
  · intro s f hf
    rw [entries_ack] at hf
    exact hI s f hf
  · obtain ⟨n, -, -, hf⟩ := hg.held _ _ _ hpre
    exact append _ _ (published_of_mem hI hf)
  · exact hI

theorem settled_of_step {c c' : (broker J E T runs).Config} {l : (broker J E T runs).Label}
    (hI : (broker J E T runs).Inv (AllPublished T) (Watched T) c) (hs : (broker J E T runs).Step c l c') :
    LeavesSettled T (fun w => w.dead.log) c.world c'.world := by
  cases hs with
  | @start i tag p w hfree hspawn =>
    obtain rfl : w = c.world := hspawn.2
    exact fun _ _ hin hout => absurd hin hout
  | @act i tag op k hrun out took h hall =>
    obtain ⟨g, hg, hwp⟩ := hI.2 i tag _ hrun
    exact leaves_settled hg hwp.1
  | @exit i => exact fun _ _ hin hout => absurd hin hout

variable (hruns : ∀ tag p, runs tag p → wp (brokerMonitor J E T) p (fun _ _ => True) {})

include hruns in
theorem broker_preserved : (broker J E T runs).Preserved (AllPublished T) (Watched T) Stored where
  start_world := by
    rintro w w' i tag p hI ⟨-, rfl⟩
    exact hI
  start_thread := by
    rintro w w' i tag p hI ⟨hp, rfl⟩
    exact ⟨{}, valid_nothing, hruns tag p hp⟩
  start_other := by
    rintro w w' i tag p hI ⟨-, rfl⟩ j tag' q hji hT
    exact hT
  act_world := by
    rintro c i tag op k out took h hI ⟨g, hg, hwp⟩ hall hφ
    exact allPublished_apply hI hg hwp.1
  act_thread := by
    rintro c i tag op k out took h hI ⟨g, hg, hwp⟩ hall hφ
    exact ⟨g.step ⟨op, out, took, h⟩, valid_step hg hwp.1 hall, hwp.2 out took h (broker_relied hI hall hφ)⟩
  act_other := by
    rintro c i tag op k out took h hI - hall hφ j tag' q hji hj ⟨g, hg, hwp⟩
    exact ⟨g, valid_grows hg grows_apply, hwp⟩

include hruns in
/-- **What leaves is settled**: in a run whose records of failures are stored when they are written, an entry leaves the
pending entries only if its processing returned, its failure was recorded, or a copy of it was appended. -/
theorem leaving_settled {c : (broker J E T runs).Config} {tr : List ((broker J E T runs).Label × _)}
    (hI : (broker J E T runs).Inv (AllPublished T) (Watched T) c) (hs : (broker J E T runs).Steps c tr)
    (hφ : Along (ActOnly Stored) c tr) :
    Along (fun c _ c' => LeavesSettled T (fun w => w.dead.log) c.world c'.world) c tr :=
  along_of_preserved (broker_preserved hruns) (fun _ _ _ hI hst _ => settled_of_step hI hst) hI hs hφ

end Runs

/-! ## Records that are evicted -/

section Evictions

variable {F D J E : Type} {T : Topic F D} {Tag : Type} {runs : Tag → Proc (BrokerSig F D J E) Unit → Prop}
  {w : BrokerWorld F D} {g : Known F D} {ev : Event (BrokerSig F D J E)}

/-- Deliveries have distinct names, and a record of a failure is of one name. -/
structure Topic.Naming (T : Topic F D) : Prop where
  key : ∀ {stream stream' n n'}, T.key stream (entryId n) = T.key stream' (entryId n') → stream = stream' ∧ n = n'
  letter : ∀ {key key' fields fields' letter}, T.IsLetter key fields letter → T.IsLetter key' fields' letter → key = key'

/-- No record evicted so far is that of a pending entry. -/
def Sparing (T : Topic F D) (w : BrokerWorld F D) : Prop :=
  ∀ letter ∈ w.dead.dropped, ∀ stream, ∀ n ∈ (w.groups stream).pending, ∀ fields,
    ¬ T.IsLetter (T.key stream (entryId n)) fields letter

/-- The record of a failure that the exchange writes is stored, and evicts none of a pending entry. -/
def Spares (T : Topic F D) (w : BrokerWorld F D) (ev : Event (BrokerSig F D J E)) : Prop :=
  ∀ letter, ev.op = .deadLetter letter → ev.took = true ∧ Sparing T (w.apply T ev)

def StoredSparing (c : (broker J E T runs).Config) (_ : ℕ) (_ : Tag) (ev : Event (BrokerSig F D J E)) : Prop :=
  Spares T c.world ev

theorem stored_of_sparing {c c' : (broker J E T runs).Config} {l : (broker J E T runs).Label}
    (h : ActOnly StoredSparing c l c') : ActOnly Stored c l c' := by
  cases l with
  | act i tag ev =>
    obtain ⟨op, out, took, hk⟩ := ev
    cases op with
    | deadLetter letter => exact (h letter rfl).1
    | _ => trivial
  | _ => trivial

/-- Every recorded failure is of an entry that had been delivered. -/
def LettersDelivered (T : Topic F D) (w : BrokerWorld F D) : Prop :=
  ∀ letter ∈ w.dead.log, ∀ stream n fields, T.IsLetter (T.key stream (entryId n)) fields letter →
    n < (w.groups stream).delivered

theorem log_apply {letter : D} (h : letter ∈ (w.apply T ev).dead.log) :
    letter ∈ w.dead.log ∨ ev.op = .deadLetter letter := by
  unfold BrokerWorld.apply at h
  split at h
  · exact .inl h
  · exact .inl h
  · exact .inl h
  · rcases List.mem_append.1 h with h | h
    · exact .inl h
    · exact .inr (by rw [List.mem_singleton.1 h])
  · exact .inl h
  · exact .inl h
  · exact .inl h

theorem lettersDelivered_apply (hT : T.Naming) (hL : LettersDelivered T w) (hg : g.Valid w)
    (hpre : (brokerMonitor J E T).pre g ev.op) : LettersDelivered T (w.apply T ev) := by
  have hgrows : w.Grows (w.apply T ev) := grows_apply
  intro letter hl stream n fields his
  refine Nat.lt_of_lt_of_le ?_ (hgrows.delivered stream)
  rcases log_apply hl with hl | hop
  · exact hL letter hl stream n fields his
  · rw [hop] at hpre
    obtain ⟨s, id, fields', hheld, his'⟩ := hpre
    obtain ⟨m, rfl, hm, -⟩ := hg.held s id fields' hheld
    obtain ⟨rfl, rfl⟩ := hT.key (hT.letter his his')
    exact hm

theorem pending_apply {stream : String} {n : ℕ} (h : n ∈ ((w.apply T ev).groups stream).pending) :
    n ∈ (w.groups stream).pending ∨ n = (w.groups stream).delivered := by
  have update : ∀ (s : String) (f : Group F → Group F), (∀ q, ∀ n ∈ (f q).pending, n ∈ q.pending) →
      n ∈ ((w.onGroup s f).groups stream).pending → n ∈ (w.groups stream).pending := by
    intro s f hf h
    by_cases hs : stream = s
    · subst hs
      exact hf _ n (by simpa [BrokerWorld.onGroup] using h)
    · simpa [BrokerWorld.onGroup, hs] using h
  unfold BrokerWorld.apply at h
  split at h
  · exact .inl (update _ (·.append _) (fun _ _ h => h) h)
  · dsimp only at h
    split_ifs at h
    · rcases Group.mem_deliver.1 h with h | ⟨h, -⟩
      · exact .inl h
      · exact .inr h
    · exact .inl h
  · exact .inl h
  · exact .inl h
  · exact .inl (update _ _ (fun _ _ h => (Group.mem_ack.1 h).1) h)
  · exact .inl (update _ (·.append _) (fun _ _ h => h) h)
  · exact .inl h

theorem dead_apply (hop : ∀ letter, ev.op ≠ .deadLetter letter) : (w.apply T ev).dead = w.dead := by
  unfold BrokerWorld.apply
  split
  · rfl
  · rfl
  · rfl
  · exact absurd rfl (hop _)
  · rfl
  · rfl
  · rfl

theorem sparing_apply (hK : Sparing T w) (hL : LettersDelivered T w) (hφ : Spares T w ev) :
    Sparing T (w.apply T ev) := by
  by_cases hop : ∃ letter, ev.op = .deadLetter letter
  · obtain ⟨letter, hop⟩ := hop
    exact (hφ letter hop).2
  · intro letter hl stream n hn fields his
    rw [dead_apply fun letter h => hop ⟨letter, h⟩] at hl
    rcases pending_apply hn with hn | rfl
    · exact hK letter hl stream n hn fields his
    · have h := hL letter (Trimmed.mem_log.2 (.inl hl)) stream _ fields his
      exact absurd h (Nat.lt_irrefl _)

/-- The invariant of runs that spare the records of pending entries. -/
def BrokerInv (c : (broker J E T runs).Config) : Prop :=
  (broker J E T runs).Inv (AllPublished T) (Watched T) c ∧ LettersDelivered T c.world ∧ Sparing T c.world

theorem brokerInv_step (hruns : ∀ tag p, runs tag p → wp (brokerMonitor J E T) p (fun _ _ => True) {}) (hT : T.Naming)
    {c c' : (broker J E T runs).Config} {l : (broker J E T runs).Label} (hI : BrokerInv c)
    (hs : (broker J E T runs).Step c l c') (hφ : ActOnly StoredSparing c l c') :
    BrokerInv c' ∧ LeavesSettled T (fun w => w.dead.content) c.world c'.world := by
  obtain ⟨hinv, hL, hK⟩ := hI
  have hstored := stored_of_sparing hφ
  have hsettled := settled_of_step hinv hs
  refine ⟨⟨inv_step (broker_preserved hruns) hinv hs hstored, ?_⟩, ?_⟩
  · cases hs with
    | @start i tag p w hfree hspawn =>
      obtain rfl : w = c.world := hspawn.2
      exact ⟨hL, hK⟩
    | @act i tag op k hrun out took h hall =>
      obtain ⟨g, hg, hwp⟩ := hinv.2 i tag _ hrun
      exact ⟨lettersDelivered_apply hT hL hg hwp.1, sparing_apply hK hL hφ⟩
    | @exit i => exact ⟨hL, hK⟩
  · intro stream n hin hout
    rcases hsettled stream n hin hout with h | ⟨fields, hf, letter, hl, his⟩ | h
    · exact .inl h
    · -- only an acknowledgement makes an entry leave, and it leaves the records as they are
      have hdead : c'.world.dead = c.world.dead := by
        cases hs with
        | @start i tag p w hfree hspawn =>
          obtain rfl : w = c.world := hspawn.2
          rfl
        | @act i tag op k hrun out took h hall =>
          refine dead_apply fun letter hop => ?_
          rw [(acked_of_left hin hout).1] at hop
          cases hop
        | @exit i => rfl
      refine .inr (.inl ⟨fields, hf, letter, ?_, his⟩)
      rcases Trimmed.mem_log.1 hl with hl | hl
      · rw [hdead] at hl
        exact absurd his (hK letter hl stream n hin fields)
      · exact hl
    · exact .inr (.inr h)

/-- **What leaves is settled, in what the streams hold**: where no record of a pending entry's failure is evicted, the
record of an entry that leaves is held when it leaves. -/
theorem leaving_held (hruns : ∀ tag p, runs tag p → wp (brokerMonitor J E T) p (fun _ _ => True) {}) (hT : T.Naming)
    {c : (broker J E T runs).Config} {tr : List ((broker J E T runs).Label × _)} (hI : BrokerInv c)
    (hs : (broker J E T runs).Steps c tr) (hφ : Along (ActOnly StoredSparing) c tr) :
    Along (fun c _ c' => LeavesSettled T (fun w => w.dead.content) c.world c'.world) c tr :=
  along_of_step (fun _ _ _ hI hst hl => brokerInv_step hruns hT hI hst hl) hI hs hφ

end Evictions

/-! ## Concrete runs -/

section Drive

variable {F D J E : Type} [DecidableEq F]

/-- The broker as a driver: every call answers; nothing has been idle for long. -/
def brokerDriver (J E : Type) (T : Topic F D) {Tag : Type} (runs : Tag → Proc (BrokerSig F D J E) Unit → Prop) :
    (broker J E T runs).Driver where
  reply w op := match op with
    | .readGroup streams => .ok (BrokerWorld.next w streams)
    | .autoClaim _ _ _ => .ok ⟨false, []⟩
    | .monotonic => .ok (0 : ℕ)
    | .append _ _ | .process _ _ | .deadLetter _ | .ack _ _ | .republish _ _ _ => .ok ()
  check w _ _ ev := match ev with
    | ⟨.readGroup streams, .ok reply, _, _⟩ => decide (reply = BrokerWorld.next w streams)
    | ⟨.autoClaim _ _ _, .ok reply, _, _⟩ => reply.entries.isEmpty
    | _ => true
  sound := by
    rintro w i tag ⟨op, out, took, hk⟩ h
    cases op with
    | readGroup streams =>
      rcases out with e | reply
      · trivial
      · have hreply : reply = BrokerWorld.next w streams := of_decide_eq_true h
        exact hreply
    | autoClaim stream idle count =>
      rcases out with e | reply
      · trivial
      · have hnil : reply.entries = [] := List.isEmpty_iff.1 h
        refine ⟨?_, ?_⟩
        · rw [hnil]
          exact Nat.zero_le _
        · rw [hnil]
          intro entry he
          cases he
    | _ => trivial

end Drive

end Transform.Lib
