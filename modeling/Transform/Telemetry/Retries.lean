import Mathlib.Algebra.GroupWithZero.Nat
import Transform.Telemetry.Accounting

/-!
# Telemetry.Retries — how often an item is offered to the storage

The sink with the store behind it: a batch is saved in two transactions, and each may fail.  A failed batch should be retried
once.  `_write` empties the retry buffer before it writes and finds it empty when the write has failed, so that a batch that
fails again is kept again: no item is offered more than twice as long as no retried item fails (`one_retry`).
-/

namespace Transform.Telemetry

open Lib

variable {α : Type} [DecidableEq α] {cfg : IngestionConfig}

/-! ## Writes -/

section Writes

/-- The batch that is being written. -/
def Await.batch : Await α → List (Item α)
  | .writing batch _ => batch
  | _ => []

namespace Sink

/-- The batch that a coroutine writes. -/
def batchBy (s : Sink α) (i : ℕ) : List (Item α) := ((mapGet s.coroutines i).map Await.batch).getD []

def offering (s : Sink α) : List (Item α) := s.coroutines.flatMap (·.2.batch)

/-- The items of the write that an event ends. -/
def finished (s : Sink α) : IngestionEvent α → List (Item α)
  | .stored i | .failed i => s.batchBy i
  | .expired i =>
    match mapGet s.coroutines i with
    | some (.waiting collector _) => s.batchBy collector
    | _ => []
  | _ => []

/-- The items that a failed write may leave for a retry. -/
def kept (s : Sink α) : IngestionEvent α → List (Item α)
  | .failed i => s.batchBy i
  | _ => []

end Sink

/-- How often an item in the hands of a coroutine may be offered yet, with the offer that goes on. -/
def Await.left (x : Item α) : Await α → ℕ
  | .collecting items => 2 * items.count x
  | .writing batch _ => batch.count x
  | .waiting _ _ => 0

/-- How often an item may be offered yet, if each is offered twice at most. -/
def Sink.left (x : Item α) (s : Sink α) : ℕ :=
  2 * s.queued.count x + s.retryBuffer.count x + (s.coroutines.map (·.2.left x)).sum

/-- How often what a coroutine goes on to await may be offered. -/
def leftOf (x : Item α) : Option (Await α) → ℕ
  | some await => await.left x
  | none => 0

variable {s s' : Sink α} {x : Item α} {items batch : List (Item α)} {i : ℕ} {r : Sink α × Option (Await α)}
  {ev : IngestionEvent α}

@[simp] theorem leftOf_resume {after : After} : leftOf x (Sink.resume after : Option (Await α)) = 0 := by
  cases after <;> rfl

theorem left_le_amount : s.left x + s.offering.count x + s.retryBuffer.count x ≤ 2 * s.amount x := by
  have hawait : ∀ await : Await α, await.left x + await.batch.count x = 2 * await.held.count x := by
    intro await
    cases await with
    | collecting items => rfl
    | writing batch after =>
      simp only [Await.left, Await.batch, Await.held]
      omega
    | waiting collector before => rfl
  have hsum : (s.coroutines.map (·.2.left x)).sum + s.offering.count x = 2 * s.held.count x := by
    unfold Sink.offering Sink.held
    induction s.coroutines with
    | nil => rfl
    | cons p rest ih =>
      have hp := hawait p.2
      rw [List.map_cons, List.sum_cons, List.flatMap_cons, List.flatMap_cons, List.count_append, List.count_append]
      omega
  unfold Sink.left Sink.amount
  omega

theorem offering_le_left : s.offering.count x + s.retryBuffer.count x ≤ s.left x := by
  have hsum : s.offering.count x ≤ (s.coroutines.map (·.2.left x)).sum := by
    unfold Sink.offering
    induction s.coroutines with
    | nil => exact Nat.le_refl 0
    | cons p rest ih =>
      have hp : p.2.batch.count x ≤ p.2.left x := by
        cases p.2 with
        | collecting items => exact Nat.zero_le _
        | writing batch after => exact Nat.le_refl _
        | waiting collector before => exact Nat.le_refl 0
      rw [List.map_cons, List.sum_cons, List.flatMap_cons, List.count_append]
      omega
  unfold Sink.left
  omega

theorem left_settle {old : Await α} (hcoroutines : r.1.coroutines = s.coroutines)
    (hold : mapGet s.coroutines i = some old) : (Sink.settle i r).left x + old.left x = r.1.left x + leftOf x r.2 := by
  obtain ⟨before, after, hentries, hreplace, herase⟩ := mapGet_split hold
  unfold Sink.settle
  rcases r with ⟨t, _ | new⟩
  · simp only [Sink.left, Sink.queued, leftOf] at hcoroutines ⊢
    rw [hcoroutines, herase, hentries]
    simp only [List.map_append, List.map_cons, List.sum_append, List.sum_cons]
    omega
  · simp only [Sink.left, Sink.queued, leftOf] at hcoroutines ⊢
    rw [hcoroutines, hreplace, hentries]
    simp only [List.map_append, List.map_cons, List.sum_append, List.sum_cons]
    omega

theorem left_launch : (Sink.launch r).left x = r.1.left x + leftOf x r.2 := by
  rcases r with ⟨t, _ | new⟩
  · rfl
  · simp only [Sink.launch, Sink.left, Sink.queued, leftOf, List.map_cons, List.sum_cons]
    omega

/-- A batch is made of the retry buffer and of new items. -/
theorem left_write {after : After} :
    (s.write cfg items after).1.left x + leftOf x (s.write cfg items after).2 ≤ s.left x + 2 * items.count x := by
  have hbatch : ((s.retryBuffer ++ items).take cfg.batchSize).count x ≤ s.retryBuffer.count x + items.count x := by
    rw [← List.count_append]
    exact (List.take_sublist _ _).count_le x
  have hcleared : ({ s with retryBuffer := [] } : Sink α).left x + s.retryBuffer.count x = s.left x := by
    simp only [Sink.left, Sink.queued, List.count_nil]
    omega
  unfold Sink.write
  dsimp only
  split_ifs with hempty hstorage
  · rw [leftOf_resume]
    dsimp only at hcleared ⊢
    omega
  · have hcounted : (({ s with retryBuffer := [] } : Sink α).countWritten
        ((s.retryBuffer ++ items).take cfg.batchSize)).left x = ({ s with retryBuffer := [] } : Sink α).left x := rfl
    rw [leftOf_resume, hcounted]
    omega
  · simp only [leftOf, Await.left]
    omega

theorem left_collected :
    (s.collected cfg items).1.left x + leftOf x (s.collected cfg items).2 ≤ s.left x + 2 * items.count x := by
  unfold Sink.collected
  split_ifs with hempty
  · rw [hempty]
    exact Nat.le_refl _
  · exact left_write

theorem left_putStop : (s.putStop cfg).left x = s.left x := by
  unfold Sink.putStop Sink.put
  split_ifs
  · have hnone : List.filterMap id [(none : Option (Item α))] = [] := rfl
    simp only [Option.getD_some, Sink.left, Sink.queued, List.filterMap_append, hnone, List.append_nil]
  · rfl

theorem left_drained {n : ℕ} : ({ s with queue := (Sink.drain s.queue n).2 } : Sink α).left x +
    2 * (Sink.drain s.queue n).1.count x = s.left x := by
  have hdrain := @count_drain _ _ x s.queue n
  simp only [Sink.left, Sink.queued]
  omega

theorem left_finishRun : (s.finishRun cfg).1.left x + leftOf x (s.finishRun cfg).2 ≤ s.left x := by
  have hdrained := left_drained (x := x) (s := s.putStop cfg) (n := cfg.batchSize)
  rw [left_putStop] at hdrained
  have hwrite := @left_write _ _ cfg { s.putStop cfg with queue := (Sink.drain (s.putStop cfg).queue cfg.batchSize).2 } x
    (Sink.drain (s.putStop cfg).queue cfg.batchSize).1 .finish
  unfold Sink.finishRun
  dsimp only at hdrained hwrite ⊢
  omega

theorem left_got (hi : mapGet s.coroutines i = some (.collecting items)) {again : Bool}
    (h : s.got cfg i items again = some s') : s'.left x ≤ s.left x := by
  unfold Sink.got at h
  split at h
  · cases h
  · rename_i queue hqueue
    obtain rfl := Option.some.inj h
    have hframe := @frame_finishRun _ cfg { s with queue := queue }
    have hsettle := left_settle (x := x) (s := s) hframe.coroutines hi
    have hrun := @left_finishRun _ _ cfg { s with queue := queue } x
    have hleft : ({ s with queue := queue } : Sink α).left x = s.left x := by
      simp only [Sink.left, Sink.queued, hqueue, List.filterMap_cons_none, id]
    omega
  · rename_i item queue hqueue
    obtain rfl := Option.some.inj h
    have hframe := @frame_collect _ cfg { s with queue := queue } items item again
    have hsettle := left_settle (x := x) (s := s) hframe.coroutines hi
    have hleft : ({ s with queue := queue } : Sink α).left x + 2 * [item].count x = s.left x := by
      simp only [Sink.left, Sink.queued, hqueue, List.filterMap_cons, id, List.count_cons, List.count_nil]
      omega
    have hcollect : (Sink.collect cfg { s with queue := queue } items item again).1.left x +
        leftOf x (Sink.collect cfg { s with queue := queue } items item again).2 ≤
        ({ s with queue := queue } : Sink α).left x + 2 * (items ++ [item]).count x := by
      unfold Sink.collect
      split_ifs
      · exact Nat.le_refl _
      · exact left_collected
    rw [List.count_append] at hcollect
    simp only [Await.left] at hsettle
    omega

omit [DecidableEq α] in
theorem batchBy_writing {after : After} (hi : mapGet s.coroutines i = some (.writing batch after)) :
    s.batchBy i = batch := by
  unfold Sink.batchBy
  rw [hi]
  rfl

theorem left_enqueue {item : Item α} :
    (s.enqueue cfg item).left x ≤ s.left x + 2 * (came cfg (.record item)).count x := by
  unfold Sink.enqueue came
  cases cfg.enabled with
  | false => exact Nat.le_refl _
  | true =>
    simp only [Bool.not_true, Bool.false_eq_true, if_false, if_true]
    unfold Sink.put
    split_ifs
    · have hqueue : (s.queue ++ [some item]).filterMap id = s.queue.filterMap id ++ [item] := by simp
      simp only [Sink.left, Sink.queued, hqueue, List.count_append]
      omega
    · exact Nat.le_add_right _ _

theorem left_writeFailed : (s.writeFailed cfg batch).left x ≤ s.left x + batch.count x := by
  unfold Sink.writeFailed
  dsimp only
  split_ifs with hretry
  · have htake : (batch.take cfg.batchSize).count x ≤ batch.count x := (List.take_sublist _ _).count_le x
    simp only [Sink.left, Sink.queued, hretry, List.count_nil]
    omega
  · exact Nat.le_add_right _ _

/-- What an event leaves of the offers: a new item has two, a write uses one, and a batch that failed may be kept. -/
theorem left_step (hs : s.Sound cfg) (h : s.step cfg ev = some s') : s'.left x + (s.finished ev).count x ≤
    s.left x + 2 * (came cfg ev).count x + (s.kept ev).count x := by
  cases step_cases h with
  | record item => exact left_enqueue
  | start =>
    unfold Sink.start
    split_ifs
    · exact Nat.le_add_right _ _
    · rw [left_launch]
      exact Nat.le_add_right _ _
  | flushNow =>
    have hdrained := left_drained (x := x) (s := s) (n := cfg.batchSize)
    have hwrite := @left_write _ _ cfg { s with queue := (Sink.drain s.queue cfg.batchSize).2 } x
      (Sink.drain s.queue cfg.batchSize).1 .finish
    simp only [Sink.finished, Sink.kept, came, List.count_nil]
    unfold Sink.flushNow
    dsimp only
    split_ifs
    · rw [left_launch]
      omega
    · omega
  | stop =>
    simp only [Sink.finished, Sink.kept, came, List.count_nil]
    unfold Sink.stop
    split
    · omega
    · rw [left_launch, left_putStop]
      exact Nat.le_refl _
  | got i again items _ hi hroom h =>
    have hgot := left_got (x := x) hi h
    simp only [Sink.finished, Sink.kept, came, List.count_nil]
    omega
  | timedOut i items hi hroom =>
    have hsettle := left_settle (x := x) (@frame_collected _ cfg s items).coroutines hi
    have hcollected := @left_collected _ _ cfg s x items
    simp only [Await.left] at hsettle
    simp only [Sink.finished, Sink.kept, came, List.count_nil]
    omega
  | stored i batch after hi =>
    have hsettle := left_settle (x := x) (r := (s.countWritten batch, Sink.resume after)) rfl hi
    have hcounted : (s.countWritten batch).left x = s.left x := rfl
    rw [leftOf_resume, hcounted] at hsettle
    simp only [Await.left] at hsettle
    simp only [Sink.finished, Sink.kept, came, List.count_nil, batchBy_writing hi]
    omega
  | failed i batch after hi =>
    have hsettle := left_settle (x := x) (r := (s.writeFailed cfg batch, Sink.resume after))
      (@frame_writeFailed _ cfg s batch).coroutines hi
    have hfailed := @left_writeFailed _ _ cfg s x batch
    rw [leftOf_resume] at hsettle
    simp only [Await.left] at hsettle
    simp only [Sink.finished, Sink.kept, came, List.count_nil, batchBy_writing hi]
    omega
  | returned i collector before hi hdone =>
    have hsettle := left_settle (x := x) (r := (s, none)) rfl hi
    simp only [Await.left, leftOf] at hsettle
    simp only [Sink.finished, Sink.kept, came, List.count_nil]
    exact Nat.le_of_eq hsettle
  | expired i collector before hi hrunning =>
    obtain ⟨await, hawait⟩ := Option.ne_none_iff_exists'.1 hrunning
    have hlt : collector < i := hs.waits i collector before (mem_of_mapGet hi)
    have hcancelled := left_settle (x := x) (r := (s, none)) rfl hawait
    have hi' : mapGet (Sink.settle collector (s, none)).coroutines i = some (.waiting collector before) := by
      show mapGet (s.coroutines.eraseP (·.1 = collector)) i = _
      rw [mapGet_eraseP_of_ne (by omega), hi]
    have hsettle := left_settle (x := x) (r := (Sink.settle collector (s, none), none)) rfl hi'
    have hbatch : (s.batchBy collector).count x ≤ await.left x := by
      unfold Sink.batchBy
      rw [hawait]
      cases await with
      | collecting items => exact Nat.zero_le _
      | writing batch after => exact Nat.le_refl _
      | waiting collector before => exact Nat.le_refl _
    have hstopped : ((Sink.settle collector (s, none)).stopped i).left x =
        (Sink.settle i (Sink.settle collector (s, none), none)).left x := rfl
    have hnone : leftOf x (none : Option (Await α)) = 0 := rfl
    have hwaiting : (Await.waiting collector before).left x = 0 := rfl
    dsimp only at hcancelled hsettle
    rw [hstopped]
    rw [hnone] at hcancelled
    rw [hwaiting, hnone] at hsettle
    simp only [Sink.finished, Sink.kept, came, List.count_nil, hi]
    omega

end Writes

/-! ## The sink and its store -/

section Flusher

/-- A row with the id that it was given when it was recorded. -/
structure Row (α : Type) where
  id : ℕ
  payload : α
  deriving DecidableEq, Repr

/-- The table and the primary key of a row. -/
def rowKey (item : Item (Row α)) : ItemTag × ℕ := (item.tag, item.payload.id)

/-- `INSERT` of rows; a key that is there already refuses them all. -/
def insertRows (rows added : List (Item (Row α))) : Option (List (Item (Row α))) :=
  if ((added ++ rows).map rowKey).Nodup then some (added ++ rows) else none

/-- What of a write was committed before it failed or was cancelled. -/
inductive Committed
  | nothing
  | events
  | everything
  deriving DecidableEq, Repr

def Committed.saved (batch : List (Item (Row α))) : Committed → List (Item (Row α))
  | .nothing => []
  | .events => batch.filter (·.tag = .event)
  | .everything => batch

/-- The sink, the next id, the items of the writes that are over, and the stored rows. -/
structure Flusher (α : Type) where
  sink : Sink (Row α) := {}
  nextId : ℕ := 0
  ended : List (Item (Row α)) := []
  rows : List (Item (Row α)) := []

/-- A request is recorded under a new id, or something else happens to the sink; `committed` is what the write that it ends
without success has saved. -/
inductive FlusherEvent (α : Type)
  | record (tag : ItemTag) (payload : α)
  | sink (ev : IngestionEvent (Row α)) (committed : Committed)
  deriving DecidableEq, Repr

namespace Flusher

variable (cfg : IngestionConfig) (f : Flusher α)

/-- The rows that an event saves: `save_events` and `save_invocations` of a write that succeeds save all. -/
def saves (ev : IngestionEvent (Row α)) (committed : Committed) : List (Item (Row α)) :=
  match ev with
  | .stored _ => f.sink.finished ev
  | _ => committed.saved (f.sink.finished ev)

def follow (ev : IngestionEvent (Row α)) (committed : Committed) : Option (Flusher α) := do
  let sink ← f.sink.step cfg ev
  let rows ← insertRows f.rows (f.saves ev committed)
  return { f with sink := sink, rows := rows, ended := f.sink.finished ev ++ f.ended }

def step (f : Flusher α) : FlusherEvent α → Option (Flusher α)
  | .record tag payload =>
    follow cfg { f with nextId := f.nextId + 1 } (.record ⟨tag, ⟨f.nextId, payload⟩⟩) .nothing
  | .sink (.record _) _ => none
  | .sink ev committed => f.follow cfg ev committed

/-- How often an item was offered to the store. -/
def offered (x : Item (Row α)) : ℕ := f.ended.count x + f.sink.offering.count x

/-- One retry, no row twice, and nothing that was offered twice waits in front of what comes later. -/
structure OneRetry (f : Flusher α) : Prop where
  twice : ∀ x, f.offered x ≤ 2
  stored : ∀ x, f.rows.count x ≤ 1
  unblocked : ∀ x ∈ f.sink.retryBuffer, f.offered x ≤ 1

/-- A write that fails has no item that was offered before. -/
def FailsFirst : FlusherEvent α → Prop
  | .sink (.failed i) _ => ∀ x ∈ f.sink.batchBy i, x ∉ f.ended
  | _ => True

instance : ∀ e : FlusherEvent α, Decidable (f.FailsFirst e)
  | .sink (.failed i) _ => inferInstanceAs (Decidable (∀ x ∈ f.sink.batchBy i, x ∉ f.ended))
  | .record _ _ | .sink (.record _) _ | .sink .start _ | .sink .flushNow _ | .sink .stop _ | .sink (.got _ _) _
  | .sink (.timedOut _) _ | .sink (.stored _) _ | .sink (.returned _) _ | .sink (.expired _) _ => isTrue trivial

/-- Each item was recorded once and has one place at most, its id is below the next one, and what was offered was recorded. -/
structure Inv (f : Flusher α) : Prop where
  sound : f.sink.Sound cfg
  places : ∀ x, f.sink.amount x ≤ f.sink.recorded.count x
  once : f.sink.recorded.Nodup
  ids : ∀ x ∈ f.sink.recorded, x.payload.id < f.nextId
  ended : ∀ x ∈ f.ended, x ∈ f.sink.recorded
  rows : (f.rows.map rowKey).Nodup

/-- The offers of an item so far, with those that it may have yet, are two at most. -/
def Within (f : Flusher α) : Prop := ∀ x, f.ended.count x + f.sink.left x ≤ 2

end Flusher

variable {f f' : Flusher α} {x : Item (Row α)} {ev : IngestionEvent (Row α)} {committed : Committed} {e : FlusherEvent α}

omit [DecidableEq α] in
theorem follow_eq (h : f.follow cfg ev committed = some f') : ∃ sink rows, f.sink.step cfg ev = some sink ∧
    insertRows f.rows (f.saves ev committed) = some rows ∧
      f' = { f with sink := sink, rows := rows, ended := f.sink.finished ev ++ f.ended } := by
  unfold Flusher.follow at h
  simp only [Option.bind_eq_bind, Option.pure_def, Option.bind_eq_some_iff, Option.some.injEq] at h
  obtain ⟨sink, hsink, rows, hrows, rfl⟩ := h
  exact ⟨sink, rows, hsink, hrows, rfl⟩

omit [DecidableEq α] in
theorem nodup_insertRows {rows added rows' : List (Item (Row α))} (h : insertRows rows added = some rows') :
    (rows'.map rowKey).Nodup := by
  unfold insertRows at h
  split_ifs at h with hnodup
  cases h
  exact hnodup

theorem batchBy_count_le (s : Sink (Row α)) (i : ℕ) : (s.batchBy i).count x ≤ s.offering.count x := by
  unfold Sink.batchBy Sink.offering
  rcases hi : mapGet s.coroutines i with _ | await
  · exact Nat.zero_le _
  · obtain ⟨before, after, hentries, -, -⟩ := mapGet_split hi
    rw [hentries, List.flatMap_append, List.flatMap_cons, List.count_append, List.count_append, Option.map_some,
      Option.getD_some]
    dsimp only
    omega

theorem finished_count_le (s : Sink (Row α)) (ev : IngestionEvent (Row α)) : (s.finished ev).count x ≤ s.offering.count x := by
  unfold Sink.finished
  split
  · exact batchBy_count_le s _
  · exact batchBy_count_le s _
  · split
    · exact batchBy_count_le s _
    · exact Nat.zero_le _
  · exact Nat.zero_le _

theorem kept_count_le (s : Sink (Row α)) (ev : IngestionEvent (Row α)) : (s.kept ev).count x ≤ s.offering.count x := by
  unfold Sink.kept
  split
  · exact batchBy_count_le s _
  · exact Nat.zero_le _

theorem recorded_of_offering (h : f.Inv cfg) (hx : 0 < f.sink.offering.count x) : x ∈ f.sink.recorded := by
  have hleft := left_le_amount (x := x) (s := f.sink)
  have hplaces := h.places x
  exact List.count_pos_iff.1 (by omega)

omit [DecidableEq α] in
theorem came_nodup (cfg : IngestionConfig) (ev : IngestionEvent (Row α)) : (came cfg ev).Nodup := by
  unfold came
  split
  · split_ifs
    · exact List.nodup_singleton _
    · exact List.nodup_nil
  · exact List.nodup_nil

theorem inv_follow {n : ℕ} (h : f.Inv cfg) (hn : f.nextId ≤ n)
    (hcame : ∀ x ∈ came cfg ev, x ∉ f.sink.recorded ∧ x.payload.id < n)
    (hs : Flusher.follow cfg { f with nextId := n } ev committed = some f') : f'.Inv cfg := by
  obtain ⟨sink, rows, hsink, hrows, rfl⟩ := follow_eq hs
  have hstep : f.sink.step cfg ev = some sink := hsink
  have hrecorded : ∀ _ : Item (Row α), sink.recorded = came cfg ev ++ f.sink.recorded :=
    fun x => (amount_step (x := x) h.sound hstep).2
  refine ⟨sound_step h.sound hstep, fun x => ?_, ?_, fun x hx => ?_, fun x hx => ?_, nodup_insertRows hrows⟩
  · have hamount := (amount_step (x := x) h.sound hstep).1
    have hplaces := h.places x
    show sink.amount x ≤ sink.recorded.count x
    rw [hrecorded x, List.count_append]
    omega
  · refine List.nodup_iff_count_le_one.2 fun x => ?_
    have hnodup : (came cfg ev ++ f.sink.recorded).Nodup :=
      List.nodup_append'.2 ⟨came_nodup cfg ev, h.once, fun x hx => (hcame x hx).1⟩
    show sink.recorded.count x ≤ 1
    rw [hrecorded x]
    exact List.nodup_iff_count_le_one.1 hnodup x
  · have hmem : x ∈ sink.recorded := hx
    rw [hrecorded x] at hmem
    rcases List.mem_append.1 hmem with hmem | hmem
    · exact (hcame x hmem).2
    · exact Nat.lt_of_lt_of_le (h.ids x hmem) hn
  · show x ∈ sink.recorded
    rw [hrecorded x]
    refine List.mem_append_right _ ?_
    rcases List.mem_append.1 hx with hdone | hended
    · have hpos : 0 < (f.sink.finished ev).count x := List.count_pos_iff.2 hdone
      exact recorded_of_offering h (Nat.lt_of_lt_of_le hpos (finished_count_le f.sink ev))
    · exact h.ended x hended

theorem within_follow {n : ℕ} (h : f.Inv cfg) (hw : f.Within) (hcame : ∀ x ∈ came cfg ev, x ∉ f.sink.recorded)
    (hkept : ∀ x ∈ f.sink.kept ev, x ∉ f.ended)
    (hs : Flusher.follow cfg { f with nextId := n } ev committed = some f') : f'.Within := by
  obtain ⟨sink, rows, hsink, hrows, rfl⟩ := follow_eq hs
  have hstep : f.sink.step cfg ev = some sink := hsink
  intro x
  have hleft := left_step (x := x) h.sound hstep
  have hplaces := left_le_amount (x := x) (s := f.sink)
  have hwithin := hw x
  have hamount := h.places x
  have honce := List.nodup_iff_count_le_one.1 h.once x
  have hfails := kept_count_le (x := x) f.sink ev
  show (f.sink.finished ev ++ f.ended).count x + sink.left x ≤ 2
  rw [List.count_append]
  by_cases hnew : x ∈ came cfg ev
  · have hone := List.nodup_iff_count_le_one.1 (came_nodup cfg ev) x
    have hzero : f.sink.recorded.count x = 0 := List.count_eq_zero.2 (hcame x hnew)
    have hended : f.ended.count x = 0 := List.count_eq_zero.2 fun hmem => hcame x hnew (h.ended x hmem)
    omega
  · have hnone : (came cfg ev).count x = 0 := List.count_eq_zero.2 hnew
    by_cases hfailed : x ∈ f.sink.kept ev
    · have hended : f.ended.count x = 0 := List.count_eq_zero.2 (hkept x hfailed)
      omega
    · have hunkept : (f.sink.kept ev).count x = 0 := List.count_eq_zero.2 hfailed
      omega

theorem step_follow (h : f.Inv cfg) (hs : f.step cfg e = some f') : ∃ n ev committed, f.nextId ≤ n ∧
    (∀ x ∈ came cfg ev, x ∉ f.sink.recorded ∧ x.payload.id < n) ∧
      (f.FailsFirst e → ∀ x ∈ f.sink.kept ev, x ∉ f.ended) ∧
        Flusher.follow cfg { f with nextId := n } ev committed = some f' := by
  cases e with
  | record tag payload =>
    refine ⟨f.nextId + 1, _, _, Nat.le_succ _, fun x hx => ?_, fun _ x hx => (by cases hx), hs⟩
    unfold came at hx
    dsimp only at hx
    split_ifs at hx
    · rw [List.mem_singleton.1 hx]
      exact ⟨fun hmem => Nat.lt_irrefl _ (h.ids _ hmem), Nat.lt_succ_self _⟩
    · cases hx
  | sink ev committed =>
    cases ev with
    | record item => cases hs
    | failed i =>
      exact ⟨f.nextId, .failed i, committed, Nat.le_refl _, fun x hx => (by cases hx), fun hfirst => hfirst, hs⟩
    | _ => exact ⟨f.nextId, _, _, Nat.le_refl _, fun x hx => (by cases hx), fun _ x hx => (by cases hx), hs⟩

theorem oneRetry_of_within (h : f.Inv cfg) (hw : f.Within) : f.OneRetry := by
  refine ⟨fun x => ?_, fun x => List.nodup_iff_count_le_one.1 (List.Nodup.of_map rowKey h.rows) x, fun x hx => ?_⟩
  · have hwithin := hw x
    have hoffering := offering_le_left (x := x) (s := f.sink)
    unfold Flusher.offered
    omega
  · have hwithin := hw x
    have hoffering := offering_le_left (x := x) (s := f.sink)
    have hwaits : 0 < f.sink.retryBuffer.count x := List.count_pos_iff.2 hx
    unfold Flusher.offered
    omega

theorem inv_empty : (({} : Flusher α)).Inv cfg :=
  ⟨sound_empty, fun _ => Nat.le_refl _, List.nodup_nil, fun _ hx => (by cases hx), fun _ hx => (by cases hx),
    List.nodup_nil⟩

/-- As long as no write fails that has an item for the second time, each item is offered twice at most and stored once, and
nothing that was offered twice waits in front of what comes later. -/
theorem one_retry {tr : List (FlusherEvent α × Flusher α)} (h : Path (Flusher.step cfg) {} tr)
    (hfirst : Throughout (fun f e _ => f.FailsFirst e) {} tr) : Throughout (fun _ _ f' => f'.OneRetry) {} tr := by
  have hstep : ∀ (f : Flusher α) (e : FlusherEvent α) (f' : Flusher α), f.Inv cfg ∧ f.Within → f.step cfg e = some f' →
      f.FailsFirst e → (f'.Inv cfg ∧ f'.Within) ∧ f'.OneRetry := by
    rintro f e f' ⟨hinv, hwithin⟩ hs hfails
    obtain ⟨n, ev, committed, hn, hcame, hkept, hfollow⟩ := step_follow hinv hs
    have hinv' := inv_follow hinv hn hcame hfollow
    have hwithin' := within_follow hinv hwithin (fun x hx => (hcame x hx).1) (hkept hfails) hfollow
    exact ⟨⟨hinv', hwithin'⟩, oneRetry_of_within hinv' hwithin'⟩
  exact throughout_of_step hstep ⟨inv_empty, fun _ => Nat.zero_le _⟩ h hfirst

/-- A write fails, and so does its retry with what has come since. -/
def failsTwice : List (FlusherEvent ℕ × Flusher ℕ) :=
  trace (Flusher.step {}) {} [.record .event 0, .sink .flushNow .nothing, .sink (.failed 0) .nothing, .record .event 1,
    .sink .flushNow .nothing, .sink (.failed 1) .nothing, .sink .flushNow .nothing]

/-- A write fails once, and its retry is stored with what has come since. -/
def failsOnce : List (FlusherEvent ℕ × Flusher ℕ) :=
  trace (Flusher.step {}) {} [.record .event 0, .sink .flushNow .nothing, .sink (.failed 0) .nothing, .record .event 1,
    .sink .flushNow .nothing, .sink (.stored 1) .nothing]

theorem one_retry_failsOnce : Throughout (fun _ _ f' => f'.OneRetry) {} failsOnce :=
  @one_retry _ _ {} _ (path_trace _ _) (by decide +kernel)

/-- An item that can never be stored is offered a third time, and the one after it with it. -/
theorem offered_a_third_time : ¬ ∀ tr : List (FlusherEvent ℕ × Flusher ℕ), Path (Flusher.step {}) {} tr →
    Throughout (fun _ _ f' => f'.OneRetry) {} tr := by
  intro h
  have hrun := h failsTwice (path_trace _ _)
  have hempty : Flusher.Inv {} ({} : Flusher ℕ) := inv_empty
  have hlast : (lastState {} failsTwice).OneRetry := last_of_throughout
    (oneRetry_of_within hempty fun _ => Nat.zero_le _) hrun
  exact absurd (hlast.twice ⟨.event, ⟨0, 0⟩⟩) (by decide +kernel)

end Flusher

end Transform.Telemetry
