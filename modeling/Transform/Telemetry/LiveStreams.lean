import Mathlib.Data.Int.Notation
import Mathlib.Data.List.Basic
import Mathlib.Tactic.SplitIfs
import Transform.Lib.Machine

/-!
# Telemetry.LiveStreams — the slots of the live dashboards

`stream_api_metrics` takes a slot before it returns the response, and the generator of the response gives it back in its
`finally`.  A generator that is closed before its first chunk is pulled never enters the `try` that the `finally` belongs to.

* `slots_iff`: the counter is the number of streams that are open exactly in the runs in which no stream is closed unpulled.
-/

namespace Transform.Telemetry

open Lib

/-! ## The endpoint -/

section Endpoint

/-- Where the generator of a stream stands: at a `yield`, at an `await`, or ended, with its body or without it. -/
inductive StreamStage
  | unstarted
  | retrySent
  | isDisconnected
  | snapshotPayload
  | errorSent
  | errorSleep
  | metricsSent
  | tickSent
  | sleep
  | finished
  | dropped
  deriving DecidableEq, Repr

/-- What the framework, the client and the clock do to a generator.  `thrown` is an exception, a cancellation among them, at
an `await` that nothing catches. -/
inductive StreamEvent
  | pull
  | disconnected (gone : Bool)
  | tick (failed : Bool)
  | wake
  | thrown
  | close
  deriving DecidableEq, Repr

/-- `event_stream`, from one suspension to the next. -/
def eventStream : StreamStage → StreamEvent → Option StreamStage
  | .unstarted, .pull => some .retrySent
  | .unstarted, .close => some .dropped
  | .retrySent, .pull => some .isDisconnected
  | .isDisconnected, .disconnected gone => some (if gone then .finished else .snapshotPayload)
  | .snapshotPayload, .tick failed => some (if failed then .errorSent else .metricsSent)
  | .errorSent, .pull => some .errorSleep
  | .errorSleep, .wake => some .isDisconnected
  | .metricsSent, .pull => some .tickSent
  | .tickSent, .pull => some .sleep
  | .sleep, .wake => some .isDisconnected
  | .retrySent, .close => some .finished
  | .errorSent, .close => some .finished
  | .metricsSent, .close => some .finished
  | .tickSent, .close => some .finished
  | .isDisconnected, .thrown => some .finished
  | .snapshotPayload, .thrown => some .finished
  | .errorSleep, .thrown => some .finished
  | .sleep, .thrown => some .finished
  | _, _ => none

/-- `_STREAM_CONNECTIONS`, with the streams that were accepted. -/
structure LiveStreams where
  connections : ℕ := 0
  streams : List StreamStage := []
  deriving DecidableEq, Repr

inductive LiveEvent
  | request (parsed : Bool)
  | stream (i : ℕ) (event : StreamEvent)
  deriving DecidableEq, Repr

namespace LiveStreams

variable (limit : ℤ) (s : LiveStreams)

/-- `_try_acquire_stream`. -/
def tryAcquireStream : Option LiveStreams :=
  if max 1 limit ≤ s.connections then none else some { s with connections := s.connections + 1 }

/-- `_release_stream`. -/
def releaseStream : LiveStreams := { s with connections := s.connections - 1 }

/-- `stream_api_metrics`: parameters that do not parse raise before a slot is taken, and no slot is a 503. -/
def streamApiMetrics (parsed : Bool) : LiveStreams :=
  if parsed then
    match s.tryAcquireStream limit with
    | none => s
    | some s => { s with streams := s.streams ++ [.unstarted] }
  else s

/-- The `finally` of a generator runs when its body ends. -/
def step (s : LiveStreams) : LiveEvent → Option LiveStreams
  | .request parsed => some (s.streamApiMetrics limit parsed)
  | .stream i event => do
    let stage ← s.streams[i]?
    let next ← eventStream stage event
    let s := { s with streams := s.streams.set i next }
    some (if next = .finished then s.releaseStream else s)

end LiveStreams

end Endpoint

/-! ## The property -/

section Property

def StreamStage.isOpen : StreamStage → Bool
  | .finished => false
  | .dropped => false
  | _ => true

/-- The accepted streams that have not ended. -/
def LiveStreams.live (s : LiveStreams) : ℕ := s.streams.countP StreamStage.isOpen

/-- The counter is the number of open streams, and a request is refused only when the limit of them is open. -/
def SlotsCounted (limit : ℤ) (s : LiveStreams) (e : LiveEvent) (s' : LiveStreams) : Prop :=
  s'.connections = s'.live ∧ (e = .request true → s.tryAcquireStream limit = none → limit ≤ s.live)

/-- No stream is closed before its first chunk is pulled. -/
def Pulled (s : LiveStreams) : LiveEvent → Prop
  | .stream i .close => s.streams[i]? ≠ some .unstarted
  | _ => True

end Property

/-! ## The counter -/

section Counter

variable {limit : ℤ} {s s' : LiveStreams} {e : LiveEvent} {stage next : StreamStage} {event : StreamEvent} {i : ℕ}

theorem eventStream_spec (h : eventStream stage event = some next) :
    stage.isOpen = true ∧ (next = .dropped ↔ stage = .unstarted ∧ event = .close) := by
  unfold eventStream at h
  split at h <;> cases h
  all_goals refine ⟨rfl, ?_⟩
  all_goals simp only [reduceCtorEq, and_self, and_false, false_and]
  all_goals split_ifs <;> exact iff_of_false nofun id

theorem live_set (next : StreamStage) (hstage : s.streams[i]? = some stage) (hopen : stage.isOpen = true) :
    LiveStreams.live { s with streams := s.streams.set i next } + 1 = s.live + (if next.isOpen then 1 else 0) := by
  obtain ⟨hi, hget⟩ := List.getElem?_eq_some_iff.mp hstage
  have hpos : 0 < s.live := List.countP_pos_iff.mpr ⟨stage, List.mem_of_getElem? hstage, hopen⟩
  unfold LiveStreams.live at hpos ⊢
  rw [List.countP_set hi, hget, if_pos hopen]
  omega

theorem connections_step (h : s.connections = s.live) (hs : LiveStreams.step limit s e = some s') :
    s'.connections = s'.live ↔ Pulled s e := by
  cases e with
  | request parsed =>
    cases hs
    refine iff_of_true ?_ trivial
    unfold LiveStreams.streamApiMetrics LiveStreams.tryAcquireStream
    split_ifs
    · exact h
    · show s.connections + 1 = (s.streams ++ [StreamStage.unstarted]).countP StreamStage.isOpen
      rw [List.countP_append, h]
      rfl
    · exact h
  | stream i event =>
    obtain ⟨stage, hstage, hs⟩ := Option.bind_eq_some_iff.mp hs
    obtain ⟨next, hnext, hs⟩ := Option.bind_eq_some_iff.mp hs
    cases hs
    obtain ⟨hopen, hdropped⟩ := eventStream_spec hnext
    have hlive := live_set next hstage hopen
    have hpulled : Pulled s (.stream i event) ↔ next ≠ .dropped := by
      rw [Ne, hdropped]
      cases event with
      | close => simp only [Pulled, hstage, ne_eq, Option.some.injEq, and_true]
      | _ => simp only [Pulled, reduceCtorEq, and_false, not_false_eq_true]
    rw [hpulled]
    cases next with
    | finished =>
      refine iff_of_true ?_ nofun
      show s.connections - 1 = LiveStreams.live { s with streams := s.streams.set i .finished }
      have hlive : _ + 1 = s.live + 0 := hlive
      omega
    | dropped =>
      refine iff_of_false ?_ fun hne => hne rfl
      show s.connections ≠ LiveStreams.live { s with streams := s.streams.set i .dropped }
      have hlive : _ + 1 = s.live + 0 := hlive
      omega
    | _ =>
      refine iff_of_true ?_ nofun
      have hlive := Nat.add_right_cancel hlive
      exact h.trans hlive.symm

theorem limit_le_of_refused (h : s.tryAcquireStream limit = none) : limit ≤ s.connections := by
  unfold LiveStreams.tryAcquireStream at h
  split_ifs at h with hfull
  omega

theorem slotsCounted_iff (h : s.connections = s.live) (hs : LiveStreams.step limit s e = some s') :
    SlotsCounted limit s e s' ↔ Pulled s e := by
  rw [← connections_step h hs]
  refine and_iff_left ?_
  intro _ hrefused
  rw [← h]
  exact limit_le_of_refused hrefused

/-- **The counter is the number of accepted streams that have not ended, and a request is refused only when the limit of
them is open**, in every run in which every stream that is closed has had its first chunk pulled, and in no other. -/
theorem slots_iff {limit : ℤ} {tr : List (LiveEvent × LiveStreams)} (htr : Path (LiveStreams.step limit) {} tr) :
    Throughout (SlotsCounted limit) {} tr ↔ Throughout (fun s e _ => Pulled s e) {} tr := by
  constructor
  · refine throughout_of_step (I := fun s => s.connections = s.live) ?_ rfl htr
    intro s e s' h hs hcounted
    exact ⟨hcounted.1, (slotsCounted_iff h hs).mp hcounted⟩
  · refine throughout_of_step (I := fun s => s.connections = s.live) ?_ rfl htr
    intro s e s' h hs hpulled
    exact ⟨(connections_step h hs).mpr hpulled, (slotsCounted_iff h hs).mpr hpulled⟩

/-- A stream sends a snapshot and is closed in its next sleep. -/
theorem watched_slot : Throughout (SlotsCounted 1) {} (trace (LiveStreams.step 1) {}
    [.request true, .stream 0 .pull, .stream 0 .pull, .stream 0 (.disconnected false), .stream 0 (.tick false),
      .request true, .stream 0 .pull, .stream 0 .pull, .stream 0 .thrown, .request true]) :=
  (slots_iff (path_trace _ _)).mpr
    ⟨trivial, trivial, trivial, trivial, trivial, trivial, trivial, trivial, trivial, trivial, trivial⟩

/-- The one slot is gone with a client that leaves before the first chunk, and the next request is refused. -/
theorem lost_slot :
    (lastState {} (trace (LiveStreams.step 1) {} [.request true, .stream 0 .close])).live = 0 ∧
    (lastState {} (trace (LiveStreams.step 1) {} [.request true, .stream 0 .close])).tryAcquireStream 1 = none ∧
    ¬ Throughout (SlotsCounted 1) {} (trace (LiveStreams.step 1) {} [.request true, .stream 0 .close, .request true]) := by
  refine ⟨by decide, by decide, ?_⟩
  rintro ⟨-, ⟨hcount, -⟩, -⟩
  exact absurd hcount (by decide)

end Counter

end Transform.Telemetry
