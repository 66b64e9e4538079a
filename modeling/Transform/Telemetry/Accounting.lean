import Mathlib.Data.List.Count
import Transform.Lib.Machine
import Transform.Telemetry.Ingestion

/-!
# Telemetry.Accounting — where recorded items are

* `amount_step`: what there is of an item after a transition, with what it loses, is what there was with what came.
* `accounted_iff`: every recorded item is at every moment counted or in exactly one place, exactly if no batch overflows, no
  sentinel arrives at a batch half collected, no write fails beside a full retry buffer and no collector is cancelled with
  items in its hands.
-/

namespace Transform.Telemetry

open Lib

variable {α : Type} [DecidableEq α] {cfg : IngestionConfig}

/-! ## What there is of an item -/

section Amount

namespace Sink

def queued (s : Sink α) : List (Item α) := s.queue.filterMap id

def held (s : Sink α) : List (Item α) := s.coroutines.flatMap (·.2.held)

/-- The items in the hands of one coroutine. -/
def heldBy (s : Sink α) (i : ℕ) : List (Item α) := ((mapGet s.coroutines i).map Await.held).getD []

/-- How often an item is counted, on the queue, in the retry buffer and in the hands of coroutines. -/
def amount (x : Item α) (s : Sink α) : ℕ :=
  s.written.count x + s.dropped.count x + s.queued.count x + s.retryBuffer.count x + s.held.count x

/-- What does not fit in a batch. -/
def overflow (cfg : IngestionConfig) (s : Sink α) (items : List (Item α)) : List (Item α) :=
  (s.retryBuffer ++ items).drop cfg.batchSize

end Sink

/-- How often an item is in the hands of a coroutine. -/
def awaited (x : Item α) : Option (Await α) → ℕ
  | some await => await.held.count x
  | none => 0

variable {s : Sink α} {x : Item α} {items batch : List (Item α)} {i : ℕ} {r : Sink α × Option (Await α)}

@[simp] theorem awaited_resume {after : After} : awaited x (Sink.resume after : Option (Await α)) = 0 := by
  cases after <;> rfl

theorem amount_settle {old : Await α} (hcoroutines : r.1.coroutines = s.coroutines) (hold : mapGet s.coroutines i = some old) :
    (Sink.settle i r).amount x + old.held.count x = r.1.amount x + awaited x r.2 := by
  obtain ⟨before, after, hentries, hreplace, herase⟩ := mapGet_split hold
  unfold Sink.settle
  rcases r with ⟨t, _ | new⟩
  · simp only [Sink.amount, Sink.queued, Sink.held, awaited] at hcoroutines ⊢
    rw [hcoroutines, herase, hentries]
    simp only [List.flatMap_append, List.flatMap_cons, List.count_append]
    omega
  · simp only [Sink.amount, Sink.queued, Sink.held, awaited] at hcoroutines ⊢
    rw [hcoroutines, hreplace, hentries]
    simp only [List.flatMap_append, List.flatMap_cons, List.count_append]
    omega

theorem amount_launch : (Sink.launch r).amount x = r.1.amount x + awaited x r.2 := by
  rcases r with ⟨t, _ | new⟩
  · rfl
  · simp only [Sink.launch, Sink.amount, Sink.queued, Sink.held, awaited, List.flatMap_cons, List.count_append]
    omega

theorem amount_countWritten : (s.countWritten batch).amount x = s.amount x + batch.count x := by
  simp only [Sink.countWritten, Sink.amount, Sink.queued, Sink.held, List.count_append]
  omega

/-- What is written, kept or handed on, with what overflows, is what was there and what came. -/
theorem amount_write {after : After} :
    (s.write cfg items after).1.amount x + awaited x (s.write cfg items after).2 + (s.overflow cfg items).count x =
      s.amount x + items.count x := by
  have hsplit : ((s.retryBuffer ++ items).take cfg.batchSize).count x + (s.overflow cfg items).count x =
      s.retryBuffer.count x + items.count x := by
    unfold Sink.overflow
    rw [← List.count_append, List.take_append_drop, List.count_append]
  have hcleared : ({ s with retryBuffer := [] } : Sink α).amount x + s.retryBuffer.count x = s.amount x := by
    simp only [Sink.amount, Sink.queued, Sink.held, List.count_nil]
    omega
  unfold Sink.write
  dsimp only
  split_ifs with hempty hstorage
  · rw [hempty] at hsplit
    rw [awaited_resume]
    simp only [List.count_nil] at hsplit ⊢
    omega
  · rw [awaited_resume, amount_countWritten]
    omega
  · simp only [awaited, Await.held]
    omega

theorem amount_collected : (s.collected cfg items).1.amount x + awaited x (s.collected cfg items).2 +
    (if items = [] then [] else s.overflow cfg items).count x = s.amount x + items.count x := by
  unfold Sink.collected
  split_ifs with hempty
  · rw [hempty]
    rfl
  · exact amount_write

theorem amount_putStop : (s.putStop cfg).amount x = s.amount x := by
  unfold Sink.putStop Sink.put
  split_ifs
  · have hnone : List.filterMap id [(none : Option (Item α))] = [] := rfl
    simp only [Option.getD_some, Sink.amount, Sink.queued, Sink.held, List.filterMap_append, hnone, List.append_nil]
  · rfl

theorem count_drain {queue : List (Option (Item α))} {n : ℕ} :
    (Sink.drain queue n).1.count x + ((Sink.drain queue n).2.filterMap id).count x = (queue.filterMap id).count x := by
  fun_induction Sink.drain queue n with
  | case1 => rfl
  | case2 => simp
  | case3 queue n ih => simpa using ih
  | case4 item queue n ih =>
    simp only [List.count_cons, List.filterMap_cons_some (f := id) (by rfl : id (some item) = some item)]
    omega

omit [DecidableEq α] in
theorem drain_append_none {queue : List (Option (Item α))} {n : ℕ} :
    (Sink.drain (queue ++ [none]) n).1 = (Sink.drain queue n).1 := by
  fun_induction Sink.drain queue n with
  | case1 n => cases n <;> rfl
  | case2 => rfl
  | case3 queue n ih => exact ih
  | case4 item queue n ih => exact congrArg (item :: ·) ih

omit [DecidableEq α] in
theorem putStop_cases : s.putStop cfg = s ∨ s.putStop cfg = { s with queue := s.queue ++ [none] } := by
  unfold Sink.putStop Sink.put
  split_ifs
  · exact .inr rfl
  · exact .inl rfl

omit [DecidableEq α] in
theorem drain_putStop {n : ℕ} : (Sink.drain (s.putStop cfg).queue n).1 = (Sink.drain s.queue n).1 := by
  rcases @putStop_cases _ cfg s with h | h
  · rw [h]
  · rw [h]
    exact drain_append_none

theorem amount_drained {n : ℕ} :
    ({ s with queue := (Sink.drain s.queue n).2 } : Sink α).amount x + (Sink.drain s.queue n).1.count x = s.amount x := by
  have hdrain := @count_drain _ _ x s.queue n
  simp only [Sink.amount, Sink.queued, Sink.held]
  omega

theorem amount_finishRun : (s.finishRun cfg).1.amount x + awaited x (s.finishRun cfg).2 +
    (s.overflow cfg (Sink.drain s.queue cfg.batchSize).1).count x = s.amount x := by
  have hretry : (s.putStop cfg).retryBuffer = s.retryBuffer := by
    rcases @putStop_cases _ cfg s with h | h <;> rw [h]
  have hwrite := @amount_write _ _ cfg
    { s.putStop cfg with queue := (Sink.drain (s.putStop cfg).queue cfg.batchSize).2 }
    x (Sink.drain (s.putStop cfg).queue cfg.batchSize).1 .finish
  have hdrained := amount_drained (x := x) (s := s.putStop cfg) (n := cfg.batchSize)
  rw [amount_putStop] at hdrained
  unfold Sink.finishRun
  unfold Sink.overflow at hwrite ⊢
  rw [← @drain_putStop _ cfg _ _, ← hretry]
  dsimp only at hwrite ⊢
  omega

theorem amount_writeFailed : (s.writeFailed cfg batch).amount x +
    (if s.retryBuffer = [] then batch.drop cfg.batchSize else batch).count x = s.amount x + batch.count x := by
  unfold Sink.writeFailed
  dsimp only
  split_ifs with hretry
  · have hsplit : (batch.take cfg.batchSize).count x + (batch.drop cfg.batchSize).count x = batch.count x := by
      rw [← List.count_append, List.take_append_drop]
    simp only [Sink.amount, Sink.queued, Sink.held, hretry, List.count_nil]
    omega
  · rfl

end Amount

/-! ## What a transition leaves alone -/

section Frame

omit [DecidableEq α]

/-- Neither what was recorded or dropped nor the coroutines have changed, and what is counted as written stays counted. -/
structure Frame (s t : Sink α) : Prop where
  recorded : t.recorded = s.recorded
  coroutines : t.coroutines = s.coroutines
  next : t.next = s.next
  task : t.task = s.task
  dropped : t.dropped = s.dropped
  written : s.written.Sublist t.written

variable {s t u : Sink α} {items batch : List (Item α)}

theorem frame_refl : Frame s s := ⟨rfl, rfl, rfl, rfl, rfl, .refl _⟩

theorem frame_trans (h : Frame s t) (h' : Frame t u) : Frame s u :=
  ⟨h'.recorded.trans h.recorded, h'.coroutines.trans h.coroutines, h'.next.trans h.next, h'.task.trans h.task,
    h'.dropped.trans h.dropped, h.written.trans h'.written⟩

theorem frame_queue {queue : List (Option (Item α))} : Frame s { s with queue := queue } :=
  ⟨rfl, rfl, rfl, rfl, rfl, .refl _⟩

theorem frame_countWritten : Frame s (s.countWritten batch) :=
  ⟨rfl, rfl, rfl, rfl, rfl, List.sublist_append_right _ _⟩

theorem frame_putStop : Frame s (s.putStop cfg) := by
  rcases @putStop_cases _ cfg s with h | h
  · rw [h]
    exact frame_refl
  · rw [h]
    exact frame_queue

theorem frame_write {after : After} : Frame s (s.write cfg items after).1 := by
  unfold Sink.write
  dsimp only
  split_ifs
  · exact ⟨rfl, rfl, rfl, rfl, rfl, .refl _⟩
  · exact ⟨rfl, rfl, rfl, rfl, rfl, List.sublist_append_right _ _⟩
  · exact ⟨rfl, rfl, rfl, rfl, rfl, .refl _⟩

theorem frame_writeFailed : Frame s (s.writeFailed cfg batch) := by
  unfold Sink.writeFailed
  dsimp only
  split_ifs <;> exact ⟨rfl, rfl, rfl, rfl, rfl, .refl _⟩

theorem frame_collected : Frame s (s.collected cfg items).1 := by
  unfold Sink.collected
  split_ifs
  · exact frame_refl
  · exact frame_write

theorem frame_collect {item : Item α} {again : Bool} : Frame s (s.collect cfg items item again).1 := by
  unfold Sink.collect
  split_ifs
  · exact frame_refl
  · exact frame_collected

theorem frame_finishRun : Frame s (s.finishRun cfg).1 :=
  frame_trans (frame_trans frame_putStop frame_queue) frame_write

theorem recorded_settle {i : ℕ} {r : Sink α × Option (Await α)} : (Sink.settle i r).recorded = r.1.recorded := by
  rcases r with ⟨t, _ | new⟩ <;> rfl

theorem recorded_launch {r : Sink α × Option (Await α)} : (Sink.launch r).recorded = r.1.recorded := by
  rcases r with ⟨t, _ | new⟩ <;> rfl

end Frame

/-! ## The state of the sink -/

section Sound

/-- How many items of each kind there are. -/
def tally (items : List (Item α)) : Tally := ⟨items.countP (·.tag = .event), items.countP (·.tag = .invocation)⟩

/-- The counters are those of the items counted, coroutines have ids of their own, a batch that is being written has items and
fits, and a `stop` waits for a coroutine that was there before it. -/
structure Sink.Sound (cfg : IngestionConfig) (s : Sink α) : Prop where
  written : s.stats.written = tally s.written
  dropped : s.stats.dropped = tally s.dropped
  ids : (s.coroutines.map (·.1)).Nodup
  below : ∀ p ∈ s.coroutines, p.1 < s.next
  task : ∀ collector ∈ s.task, collector < s.next
  fits : ∀ i batch after, (i, .writing batch after) ∈ s.coroutines → batch ≠ [] ∧ batch.length ≤ cfg.batchSize
  waits : ∀ i collector before, (i, .waiting collector before) ∈ s.coroutines → collector < i

/-- What a coroutine may go on to await: a batch that fits, and no `stop`. -/
def Await.Fine (cfg : IngestionConfig) : Await α → Prop
  | .writing batch _ => batch ≠ [] ∧ batch.length ≤ cfg.batchSize
  | .collecting _ => True
  | .waiting _ _ => False

/-- The counters are those of the items counted. -/
structure Sink.Tallied (s : Sink α) : Prop where
  written : s.stats.written = tally s.written
  dropped : s.stats.dropped = tally s.dropped

variable {s t : Sink α} {items batch : List (Item α)} {item : Item α} {i : ℕ} {r : Sink α × Option (Await α)}

omit [DecidableEq α]

theorem tally_cons : tally (item :: items) = (tally items).add item.tag := by
  unfold tally
  rw [List.countP_cons, List.countP_cons]
  rcases item with ⟨_ | _, payload⟩ <;> simp [Tally.add]

theorem foldl_add : ∀ (batch : List (Item α)) (items : List (Item α)),
    batch.foldl (fun t item => t.add item.tag) (tally items) = tally (batch ++ items)
  | [], _ => rfl
  | item :: batch, items => by
    rw [List.foldl_cons, ← tally_cons, foldl_add batch (item :: items)]
    unfold tally
    simp only [List.countP_append, List.countP_cons]
    exact congrArg₂ Tally.mk (by omega) (by omega)

theorem tallied_countWritten (h : s.Tallied) : (s.countWritten batch).Tallied := by
  refine ⟨?_, h.dropped⟩
  show batch.foldl (fun t item => t.add item.tag) s.stats.written = tally (batch ++ s.written)
  rw [h.written]
  exact foldl_add batch s.written

theorem fine_resume {after : After} : ∀ await ∈ (Sink.resume after : Option (Await α)), await.Fine cfg := by
  cases after with
  | loop =>
    rintro _ ⟨⟩
    trivial
  | finish => rintro _ ⟨⟩

theorem fine_write {after : After} (h : s.Tallied) :
    (s.write cfg items after).1.Tallied ∧ ∀ await ∈ (s.write cfg items after).2, await.Fine cfg := by
  unfold Sink.write
  dsimp only
  split_ifs with hempty hstorage
  · exact ⟨⟨h.written, h.dropped⟩, fine_resume⟩
  · exact ⟨tallied_countWritten ⟨h.written, h.dropped⟩, fine_resume⟩
  · refine ⟨⟨h.written, h.dropped⟩, ?_⟩
    rintro _ ⟨⟩
    exact ⟨hempty, List.length_take_le _ _⟩

theorem tallied_writeFailed (h : s.Tallied) : (s.writeFailed cfg batch).Tallied := by
  unfold Sink.writeFailed
  dsimp only
  split_ifs <;> exact ⟨h.written, h.dropped⟩

theorem fine_collected (h : s.Tallied) :
    (s.collected cfg items).1.Tallied ∧ ∀ await ∈ (s.collected cfg items).2, await.Fine cfg := by
  unfold Sink.collected
  split_ifs
  · refine ⟨h, ?_⟩
    rintro _ ⟨⟩
    trivial
  · exact fine_write h

theorem fine_collect {again : Bool} (h : s.Tallied) :
    (s.collect cfg items item again).1.Tallied ∧ ∀ await ∈ (s.collect cfg items item again).2, await.Fine cfg := by
  unfold Sink.collect
  split_ifs
  · refine ⟨h, ?_⟩
    rintro _ ⟨⟩
    trivial
  · exact fine_collected h

theorem tallied_putStop (h : s.Tallied) : (s.putStop cfg).Tallied := by
  rcases @putStop_cases _ cfg s with heq | heq
  · rw [heq]
    exact h
  · rw [heq]
    exact ⟨h.written, h.dropped⟩

theorem fine_finishRun (h : s.Tallied) :
    (s.finishRun cfg).1.Tallied ∧ ∀ await ∈ (s.finishRun cfg).2, await.Fine cfg := by
  have hput := @tallied_putStop _ cfg _ h
  exact fine_write ⟨hput.written, hput.dropped⟩

theorem sound_settle (hs : s.Sound cfg) (hframe : Frame s r.1) (htallied : r.1.Tallied)
    (hfine : ∀ await ∈ r.2, await.Fine cfg) (hi : mapGet s.coroutines i ≠ none) : (Sink.settle i r).Sound cfg := by
  obtain ⟨old, hold⟩ := Option.ne_none_iff_exists'.1 hi
  obtain ⟨before, after, hentries, hreplace, herase⟩ := mapGet_split hold
  obtain ⟨t, _ | new⟩ := r
  · obtain ⟨-, hcoroutines, hnext, htask, -, -⟩ := hframe
    dsimp only at hcoroutines hnext htask
    have hsub : (t.coroutines.eraseP (·.1 = i)).Sublist s.coroutines := by
      rw [hcoroutines]
      exact List.eraseP_sublist
    refine ⟨htallied.written, htallied.dropped, hs.ids.sublist (hsub.map _), fun p hp => ?_, fun c hc => ?_, ?_, ?_⟩
    · rw [show (Sink.settle i (t, none)).next = s.next from hnext]
      exact hs.below p (hsub.subset hp)
    · rw [show (Sink.settle i (t, none)).next = s.next from hnext]
      exact hs.task c (htask ▸ hc)
    · exact fun j batch after' hj => hs.fits j batch after' (hsub.subset hj)
    · exact fun j c before' hj => hs.waits j c before' (hsub.subset hj)
  · obtain ⟨-, hcoroutines, hnext, htask, -, -⟩ := hframe
    dsimp only at hcoroutines hnext htask
    have hlist : (Sink.settle i (t, some new)).coroutines = before ++ (i, new) :: after := by
      show mapReplace i new t.coroutines = _
      rw [hcoroutines, hreplace]
    have hmem : ∀ p ∈ (Sink.settle i (t, some new)).coroutines, p = (i, new) ∨ p ∈ s.coroutines := by
      intro p hp
      rw [hlist] at hp
      rw [hentries]
      rcases List.mem_append.1 hp with hp | hp
      · exact .inr (List.mem_append_left _ hp)
      · rcases List.mem_cons.1 hp with hp | hp
        · exact .inl hp
        · exact .inr (List.mem_append_right _ (List.mem_cons_of_mem _ hp))
    have hnew : new.Fine cfg := hfine new rfl
    refine ⟨htallied.written, htallied.dropped, ?_, fun p hp => ?_, fun c hc => ?_, fun j batch after' hj => ?_,
      fun j c before' hj => ?_⟩
    · show ((mapReplace i new t.coroutines).map (·.1)).Nodup
      rw [keys_mapReplace, hcoroutines]
      exact hs.ids
    · rw [show (Sink.settle i (t, some new)).next = s.next from hnext]
      rcases hmem p hp with rfl | hp
      · exact hs.below (i, old) (mem_of_mapGet hold)
      · exact hs.below p hp
    · rw [show (Sink.settle i (t, some new)).next = s.next from hnext]
      exact hs.task c (htask ▸ hc)
    · rcases hmem _ hj with heq | hj
      · cases heq
        exact hnew
      · exact hs.fits j batch after' hj
    · rcases hmem _ hj with heq | hj
      · cases heq
        exact hnew.elim
      · exact hs.waits j c before' hj

theorem sound_launch (hs : s.Sound cfg) (hcoroutines : r.1.coroutines = s.coroutines) (hnext : r.1.next = s.next)
    (htallied : r.1.Tallied) (htask : ∀ c ∈ r.1.task, c < s.next ∨ r.2 ≠ none ∧ c = s.next)
    (hawait : ∀ await ∈ r.2, await.Fine cfg ∨ ∃ c before, await = .waiting c before ∧ c < s.next) :
    (Sink.launch r).Sound cfg := by
  obtain ⟨t, _ | new⟩ := r
  · dsimp only at hcoroutines hnext htask
    have hbelow : ∀ c ∈ t.task, c < t.next := by
      intro c hc
      rw [hnext]
      exact (htask c hc).resolve_right fun h => h.1 rfl
    refine ⟨htallied.written, htallied.dropped, ?_, ?_, hbelow, ?_, ?_⟩
    · show (t.coroutines.map (·.1)).Nodup
      rw [hcoroutines]
      exact hs.ids
    · show ∀ p ∈ t.coroutines, p.1 < t.next
      rw [hcoroutines, hnext]
      exact hs.below
    · show ∀ i batch after, _ ∈ t.coroutines → _
      rw [hcoroutines]
      exact hs.fits
    · show ∀ i c before, _ ∈ t.coroutines → _
      rw [hcoroutines]
      exact hs.waits
  · dsimp only at hcoroutines hnext htask
    have hlist : (Sink.launch (t, some new)).coroutines = (s.next, new) :: s.coroutines := by
      show (t.next, new) :: t.coroutines = _
      rw [hcoroutines, hnext]
    have hnext' : (Sink.launch (t, some new)).next = s.next + 1 := congrArg (· + 1) hnext
    refine ⟨htallied.written, htallied.dropped, ?_, ?_, ?_, ?_, ?_⟩
    · rw [hlist, List.map_cons, List.nodup_cons]
      refine ⟨fun hmem => ?_, hs.ids⟩
      obtain ⟨p, hp, heq⟩ := List.mem_map.1 hmem
      exact absurd (hs.below p hp) (by omega)
    · rw [hlist, hnext']
      intro p hp
      rcases List.mem_cons.1 hp with rfl | hp
      · exact Nat.lt_succ_self _
      · exact Nat.lt_succ_of_lt (hs.below p hp)
    · rw [hnext']
      intro c hc
      rcases htask c hc with hlt | ⟨-, rfl⟩
      · exact Nat.lt_succ_of_lt hlt
      · exact Nat.lt_succ_self _
    · rw [hlist]
      intro j batch after hj
      rcases List.mem_cons.1 hj with heq | hj
      · cases heq
        rcases hawait _ rfl with hfine | ⟨c, before, heq, -⟩
        · exact hfine
        · cases heq
      · exact hs.fits j batch after hj
    · rw [hlist]
      intro j c before hj
      rcases List.mem_cons.1 hj with heq | hj
      · cases heq
        rcases hawait _ rfl with hfine | ⟨c', before', heq, hlt⟩
        · exact hfine.elim
        · cases heq
          exact hlt
      · exact hs.waits j c before hj

theorem tallied_of_sound (hs : s.Sound cfg) : s.Tallied := ⟨hs.written, hs.dropped⟩

theorem sound_got (hs : s.Sound cfg) {again : Bool} {s' : Sink α} (hi : mapGet s.coroutines i = some (.collecting items))
    (h : s.got cfg i items again = some s') : s'.Sound cfg := by
  have hne : mapGet s.coroutines i ≠ none := by
    rw [hi]
    exact Option.some_ne_none _
  unfold Sink.got at h
  split at h
  · cases h
  · rename_i queue _
    obtain rfl := Option.some.inj h
    have hframe := @frame_finishRun _ cfg { s with queue := queue }
    obtain ⟨htallied, hfine⟩ := @fine_finishRun _ cfg { s with queue := queue } ⟨hs.written, hs.dropped⟩
    exact sound_settle hs (frame_trans frame_queue hframe) htallied hfine hne
  · rename_i item queue _
    obtain rfl := Option.some.inj h
    have hframe := @frame_collect _ cfg { s with queue := queue } items item again
    obtain ⟨htallied, hfine⟩ := @fine_collect _ cfg
      { s with queue := queue } items item again ⟨hs.written, hs.dropped⟩
    exact sound_settle hs (frame_trans frame_queue hframe) htallied hfine hne

theorem sound_stopped (hs : s.Sound cfg) (hi : mapGet s.coroutines i ≠ none) : (s.stopped i).Sound cfg := by
  have hsettle := sound_settle (i := i) (r := (s, none)) hs frame_refl (tallied_of_sound hs) (by rintro _ ⟨⟩) hi
  refine ⟨hsettle.written, hsettle.dropped, hsettle.ids, hsettle.below, ?_, hsettle.fits, hsettle.waits⟩
  rintro _ ⟨⟩

theorem sound_enqueue (hs : s.Sound cfg) : (s.enqueue cfg item).Sound cfg := by
  unfold Sink.enqueue
  split_ifs
  · exact hs
  · unfold Sink.put
    split_ifs
    · exact ⟨hs.written, hs.dropped, hs.ids, hs.below, hs.task, hs.fits, hs.waits⟩
    · refine ⟨hs.written, ?_, hs.ids, hs.below, hs.task, hs.fits, hs.waits⟩
      show s.stats.dropped.add item.tag = tally (item :: s.dropped)
      rw [hs.dropped, tally_cons]

/-- What a transition does, and what it asks for. -/
inductive Stepped (cfg : IngestionConfig) (s : Sink α) : IngestionEvent α → Sink α → Prop
  | record (item : Item α) : Stepped cfg s (.record item) (s.enqueue cfg item)
  | start : Stepped cfg s .start (s.start cfg)
  | flushNow : Stepped cfg s .flushNow (s.flushNow cfg)
  | stop : Stepped cfg s .stop (s.stop cfg)
  | got (i : ℕ) (again : Bool) (items : List (Item α)) (s' : Sink α) (hi : mapGet s.coroutines i = some (.collecting items))
      (hroom : items.length < cfg.batchSize) (h : s.got cfg i items again = some s') : Stepped cfg s (.got i again) s'
  | timedOut (i : ℕ) (items : List (Item α)) (hi : mapGet s.coroutines i = some (.collecting items))
      (hroom : items.length < cfg.batchSize) : Stepped cfg s (.timedOut i) (Sink.settle i (s.collected cfg items))
  | stored (i : ℕ) (batch : List (Item α)) (after : After) (hi : mapGet s.coroutines i = some (.writing batch after)) :
      Stepped cfg s (.stored i) (Sink.settle i (s.countWritten batch, Sink.resume after))
  | failed (i : ℕ) (batch : List (Item α)) (after : After) (hi : mapGet s.coroutines i = some (.writing batch after)) :
      Stepped cfg s (.failed i) (Sink.settle i (s.writeFailed cfg batch, Sink.resume after))
  | returned (i collector : ℕ) (before : List (Item α)) (hi : mapGet s.coroutines i = some (.waiting collector before))
      (hdone : mapGet s.coroutines collector = none) : Stepped cfg s (.returned i) (s.stopped i)
  | expired (i collector : ℕ) (before : List (Item α)) (hi : mapGet s.coroutines i = some (.waiting collector before))
      (hrunning : mapGet s.coroutines collector ≠ none) :
      Stepped cfg s (.expired i) ((Sink.settle collector (s, none)).stopped i)

theorem step_cases {ev : IngestionEvent α} {s' : Sink α} (h : s.step cfg ev = some s') : Stepped cfg s ev s' := by
  cases ev with
  | record item =>
    obtain rfl := Option.some.inj h
    exact .record item
  | start =>
    obtain rfl := Option.some.inj h
    exact .start
  | flushNow =>
    obtain rfl := Option.some.inj h
    exact .flushNow
  | stop =>
    obtain rfl := Option.some.inj h
    exact .stop
  | got i again =>
    unfold Sink.step at h
    dsimp only at h
    split at h
    · rename_i items hi
      split_ifs at h with hroom
      exact .got i again items s' hi hroom h
    · cases h
  | timedOut i =>
    unfold Sink.step at h
    dsimp only at h
    split at h
    · rename_i items hi
      split_ifs at h with hroom
      obtain rfl := Option.some.inj h
      exact .timedOut i items hi hroom
    · cases h
  | stored i =>
    unfold Sink.step at h
    dsimp only at h
    split at h
    · rename_i batch after hi
      obtain rfl := Option.some.inj h
      exact .stored i batch after hi
    · cases h
  | failed i =>
    unfold Sink.step at h
    dsimp only at h
    split at h
    · rename_i batch after hi
      obtain rfl := Option.some.inj h
      exact .failed i batch after hi
    · cases h
  | returned i =>
    unfold Sink.step at h
    dsimp only at h
    split at h
    · rename_i collector before hi
      split_ifs at h with hdone
      obtain rfl := Option.some.inj h
      exact .returned i collector before hi hdone
    · cases h
  | expired i =>
    unfold Sink.step at h
    dsimp only at h
    split at h
    · rename_i collector before hi
      split_ifs at h with hrunning
      obtain rfl := Option.some.inj h
      exact .expired i collector before hi hrunning
    · cases h

/-- **The step lemma** of the state of the sink. -/
theorem sound_step (hs : s.Sound cfg) {ev : IngestionEvent α} {s' : Sink α} (h : s.step cfg ev = some s') : s'.Sound cfg := by
  cases step_cases h with
  | record item =>
    exact sound_enqueue hs
  | start =>
    unfold Sink.start
    split_ifs
    · exact hs
    · refine sound_launch (s := s) hs rfl rfl ⟨hs.written, hs.dropped⟩ ?_ ?_
      · rintro _ ⟨⟩
        exact .inr ⟨Option.some_ne_none _, rfl⟩
      · rintro _ ⟨⟩
        exact .inl trivial
  | flushNow =>
    unfold Sink.flushNow
    dsimp only
    split_ifs
    · have hframe := @frame_write _ cfg
        { s with queue := (Sink.drain s.queue cfg.batchSize).2 } (Sink.drain s.queue cfg.batchSize).1 .finish
      obtain ⟨htallied, hfine⟩ := @fine_write _ cfg
        { s with queue := (Sink.drain s.queue cfg.batchSize).2 } (Sink.drain s.queue cfg.batchSize).1 .finish
        ⟨hs.written, hs.dropped⟩
      refine sound_launch hs hframe.coroutines hframe.next htallied ?_ fun await h => .inl (hfine await h)
      intro c hc
      rw [hframe.task] at hc
      exact .inl (hs.task c hc)
    · exact ⟨hs.written, hs.dropped, hs.ids, hs.below, hs.task, hs.fits, hs.waits⟩
  | stop =>
    unfold Sink.stop
    split
    · exact hs
    · rename_i collector htask
      have hframe := @frame_putStop _ cfg s
      refine sound_launch hs hframe.coroutines hframe.next (tallied_putStop (tallied_of_sound hs)) ?_ ?_
      · intro c hc
        rw [hframe.task] at hc
        exact .inl (hs.task c hc)
      · rintro _ ⟨⟩
        exact .inr ⟨_, _, rfl, hs.task collector htask⟩
  | got i again items _ hi hroom h =>
    exact sound_got hs hi h
  | timedOut i items hi hroom =>
    obtain ⟨htallied, hfine⟩ := @fine_collected _ cfg _ items (tallied_of_sound hs)
    exact sound_settle hs frame_collected htallied hfine (by rw [hi]; exact Option.some_ne_none _)
  | stored i batch after hi =>
    exact sound_settle hs frame_countWritten (tallied_countWritten (tallied_of_sound hs)) fine_resume
      (by rw [hi]; exact Option.some_ne_none _)
  | failed i batch after hi =>
    exact sound_settle hs frame_writeFailed (tallied_writeFailed (tallied_of_sound hs)) fine_resume
      (by rw [hi]; exact Option.some_ne_none _)
  | returned i collector before hi hdone =>
    exact sound_stopped hs (by rw [hi]; exact Option.some_ne_none _)
  | expired i collector before hi hrunning =>
    have hlt : collector < i := hs.waits i collector before (mem_of_mapGet hi)
    have hcancelled := sound_settle (r := (s, none)) hs frame_refl (tallied_of_sound hs) (by rintro _ ⟨⟩) hrunning
    refine sound_stopped hcancelled ?_
    show mapGet (s.coroutines.eraseP (·.1 = collector)) i ≠ none
    rw [mapGet_eraseP_of_ne (by omega), hi]
    exact Option.some_ne_none _

end Sound

/-! ## What a transition loses -/

section Lost

/-- The batch that a sentinel finds half collected, and what overflows the last one. -/
def Sink.lostGot (cfg : IngestionConfig) (s : Sink α) (items : List (Item α)) (again : Bool) : List (Item α) :=
  match s.queue with
  | [] => []
  | none :: queue => items ++ s.overflow cfg (Sink.drain queue cfg.batchSize).1
  | some item :: _ =>
    if (items ++ [item]).length < cfg.batchSize && again then [] else s.overflow cfg (items ++ [item])

/-- The items that an event leaves in no place without counting them. -/
def Sink.lost (cfg : IngestionConfig) (s : Sink α) : IngestionEvent α → List (Item α)
  | .flushNow =>
    if (Sink.drain s.queue cfg.batchSize).1 ≠ [] ∨ s.retryBuffer ≠ [] then
      s.overflow cfg (Sink.drain s.queue cfg.batchSize).1
    else []
  | .got i again =>
    match mapGet s.coroutines i with
    | some (.collecting items) => s.lostGot cfg items again
    | _ => []
  | .timedOut i =>
    match mapGet s.coroutines i with
    | some (.collecting items) => if items = [] then [] else s.overflow cfg items
    | _ => []
  | .failed i =>
    match mapGet s.coroutines i with
    | some (.writing batch _) => if s.retryBuffer = [] then batch.drop cfg.batchSize else batch
    | _ => []
  | .expired i =>
    match mapGet s.coroutines i with
    | some (.waiting collector _) => s.heldBy collector
    | _ => []
  | _ => []

def came (cfg : IngestionConfig) : IngestionEvent α → List (Item α)
  | .record item => if cfg.enabled then [item] else []
  | _ => []

variable {s s' : Sink α} {x : Item α} {items : List (Item α)} {i : ℕ} {again : Bool} {ev : IngestionEvent α}

omit [DecidableEq α] in
theorem lost_got (hi : mapGet s.coroutines i = some (.collecting items)) :
    s.lost cfg (.got i again) = s.lostGot cfg items again := by
  unfold Sink.lost
  dsimp only
  rw [hi]

omit [DecidableEq α] in
theorem lost_timedOut (hi : mapGet s.coroutines i = some (.collecting items)) :
    s.lost cfg (.timedOut i) = if items = [] then [] else s.overflow cfg items := by
  unfold Sink.lost
  dsimp only
  rw [hi]

omit [DecidableEq α] in
theorem lost_failed {batch : List (Item α)} {after : After} (hi : mapGet s.coroutines i = some (.writing batch after)) :
    s.lost cfg (.failed i) = if s.retryBuffer = [] then batch.drop cfg.batchSize else batch := by
  unfold Sink.lost
  dsimp only
  rw [hi]

omit [DecidableEq α] in
theorem lost_expired {collector : ℕ} {before : List (Item α)} (hi : mapGet s.coroutines i = some (.waiting collector before)) :
    s.lost cfg (.expired i) = s.heldBy collector := by
  unfold Sink.lost
  dsimp only
  rw [hi]

theorem amount_enqueue {item : Item α} :
    (s.enqueue cfg item).amount x = s.amount x + (came cfg (.record item)).count x ∧
      (s.enqueue cfg item).recorded = came cfg (.record item) ++ s.recorded := by
  unfold Sink.enqueue came
  cases cfg.enabled with
  | false => exact ⟨rfl, rfl⟩
  | true =>
    simp only [Bool.not_true, Bool.false_eq_true, if_false, if_true]
    unfold Sink.put
    split_ifs
    · refine ⟨?_, rfl⟩
      have hqueue : (s.queue ++ [some item]).filterMap id = s.queue.filterMap id ++ [item] := by simp
      simp only [Sink.amount, Sink.queued, Sink.held, hqueue, List.count_append]
      omega
    · refine ⟨?_, rfl⟩
      simp only [Sink.amount, Sink.queued, Sink.held, List.count_cons, List.count_nil]
      omega

theorem amount_got (hi : mapGet s.coroutines i = some (.collecting items)) (h : s.got cfg i items again = some s') :
    s'.amount x + (s.lostGot cfg items again).count x = s.amount x ∧ s'.recorded = s.recorded := by
  unfold Sink.got at h
  unfold Sink.lostGot
  rcases hqueue : s.queue with _ | ⟨_ | item, queue⟩
  · rw [hqueue] at h
    cases h
  · rw [hqueue] at h
    obtain rfl := Option.some.inj h
    have hframe := @frame_finishRun _ cfg { s with queue := queue }
    have hsettle := amount_settle (x := x) (s := s) hframe.coroutines hi
    have hfinish := @amount_finishRun _ _ cfg { s with queue := queue } x
    have hpopped : ({ s with queue := queue } : Sink α).amount x = s.amount x := by
      simp only [Sink.amount, Sink.queued, Sink.held, hqueue]
      rfl
    refine ⟨?_, recorded_settle.trans hframe.recorded⟩
    have hover : ({ s with queue := queue } : Sink α).overflow cfg (Sink.drain queue cfg.batchSize).1 =
        s.overflow cfg (Sink.drain queue cfg.batchSize).1 := rfl
    dsimp only at hfinish ⊢
    rw [hover] at hfinish
    rw [List.count_append]
    simp only [Await.held] at hsettle
    omega
  · rw [hqueue] at h
    obtain rfl := Option.some.inj h
    have hframe := @frame_collect _ cfg { s with queue := queue } items item again
    have hsettle := amount_settle (x := x) (s := s) hframe.coroutines hi
    have hpopped : ({ s with queue := queue } : Sink α).amount x + [item].count x = s.amount x := by
      simp only [Sink.amount, Sink.queued, Sink.held, hqueue,
        List.filterMap_cons_some (f := id) (by rfl : id (some item) = some item), List.count_cons, List.count_nil]
      omega
    have hcollected := @amount_collected _ _ cfg { s with queue := queue } x (items ++ [item])
    have hover : ({ s with queue := queue } : Sink α).overflow cfg (items ++ [item]) = s.overflow cfg (items ++ [item]) := rfl
    refine ⟨?_, recorded_settle.trans hframe.recorded⟩
    simp only [Await.held] at hsettle
    rw [if_neg (by simp), hover, List.count_append] at hcollected
    unfold Sink.collect at hsettle ⊢
    dsimp only
    split_ifs at hsettle ⊢ with hagain
    · simp only [awaited, Await.held, List.count_append, List.count_nil] at hsettle ⊢
      omega
    · omega

/-- **Conservation**: what there is of an item after a transition, with what it has lost, is what there was with what came. -/
theorem amount_step (hs : s.Sound cfg) (h : s.step cfg ev = some s') : s'.amount x + (s.lost cfg ev).count x = s.amount x + (came cfg ev).count x ∧
    s'.recorded = came cfg ev ++ s.recorded := by
  cases step_cases h with
  | record item =>
    exact amount_enqueue
  | start =>
    unfold Sink.start
    split_ifs
    · exact ⟨rfl, rfl⟩
    · refine ⟨?_, rfl⟩
      rw [amount_launch]
      rfl
  | flushNow =>
    have hdrained := amount_drained (x := x) (s := s) (n := cfg.batchSize)
    unfold Sink.flushNow Sink.lost
    dsimp only
    split_ifs with hany
    · have hwrite := @amount_write _ _ cfg
        { s with queue := (Sink.drain s.queue cfg.batchSize).2 } x (Sink.drain s.queue cfg.batchSize).1 .finish
      have hframe := @frame_write _ cfg
        { s with queue := (Sink.drain s.queue cfg.batchSize).2 } (Sink.drain s.queue cfg.batchSize).1 .finish
      refine ⟨?_, recorded_launch.trans hframe.recorded⟩
      have hover : ({ s with queue := (Sink.drain s.queue cfg.batchSize).2 } : Sink α).overflow cfg
          (Sink.drain s.queue cfg.batchSize).1 = s.overflow cfg (Sink.drain s.queue cfg.batchSize).1 := rfl
      rw [hover] at hwrite
      rw [amount_launch]
      simp only [came, List.count_nil]
      omega
    · refine ⟨?_, rfl⟩
      have hnone : (Sink.drain s.queue cfg.batchSize).1 = [] := not_not.1 (not_or.1 hany).1
      rw [hnone, List.count_nil] at hdrained
      simp only [came, List.count_nil]
      omega
  | stop =>
    unfold Sink.stop
    split
    · exact ⟨rfl, rfl⟩
    · refine ⟨?_, recorded_launch.trans frame_putStop.recorded⟩
      rw [amount_launch, amount_putStop]
      rfl
  | got i again items _ hi hroom h =>
    rw [lost_got hi]
    exact amount_got hi h
  | timedOut i items hi hroom =>
    rw [lost_timedOut hi]
    have hframe := @frame_collected _ cfg s items
    have hsettle := amount_settle (x := x) hframe.coroutines hi
    have hcollected := @amount_collected _ _ cfg s x items
    refine ⟨?_, recorded_settle.trans hframe.recorded⟩
    simp only [Await.held] at hsettle
    simp only [came, List.count_nil]
    omega
  | stored i batch after hi =>
    have hsettle := amount_settle (x := x) (r := (s.countWritten batch, Sink.resume after)) rfl hi
    refine ⟨?_, recorded_settle.trans rfl⟩
    rw [awaited_resume, amount_countWritten] at hsettle
    simp only [Await.held] at hsettle
    simp only [Sink.lost, came, List.count_nil]
    omega
  | failed i batch after hi =>
    rw [lost_failed hi]
    have hframe := @frame_writeFailed _ cfg s batch
    have hsettle := amount_settle (x := x) (r := (s.writeFailed cfg batch, Sink.resume after)) hframe.coroutines hi
    have hfailed := @amount_writeFailed _ _ cfg s x batch
    refine ⟨?_, recorded_settle.trans hframe.recorded⟩
    rw [awaited_resume] at hsettle
    simp only [Await.held] at hsettle
    simp only [came, List.count_nil]
    omega
  | returned i collector before hi hdone =>
    have hsettle := amount_settle (x := x) (r := (s, none)) rfl hi
    exact ⟨hsettle, recorded_settle.trans rfl⟩
  | expired i collector before hi hrunning =>
    rw [lost_expired hi]
    obtain ⟨await, hawait⟩ := Option.ne_none_iff_exists'.1 hrunning
    have hlt : collector < i := hs.waits i collector before (mem_of_mapGet hi)
    have hcancelled := amount_settle (x := x) (r := (s, none)) rfl hawait
    have hi' : mapGet (Sink.settle collector (s, none)).coroutines i = some (.waiting collector before) := by
      show mapGet (s.coroutines.eraseP (·.1 = collector)) i = _
      rw [mapGet_eraseP_of_ne (by omega), hi]
    have hsettle := amount_settle (x := x) (r := (Sink.settle collector (s, none), none)) rfl hi'
    refine ⟨?_, recorded_settle.trans recorded_settle⟩
    have hstopped : ((Sink.settle collector (s, none)).stopped i).amount x =
        (Sink.settle i (Sink.settle collector (s, none), none)).amount x := rfl
    rw [hstopped]
    simp only [Sink.heldBy, hawait, Option.map_some, Option.getD_some, awaited, Await.held, came, List.count_nil] at hcancelled hsettle ⊢
    omega

end Lost

/-! ## Every item in one place -/

section Accounting

/-- Every recorded item is counted as written or as dropped, or is on the queue, in the retry buffer or in the hands of a
coroutine, as often as it was recorded; and the counters are those of the items counted. -/
structure Accounted (s : Sink α) : Prop where
  places : ∀ x, s.recorded.count x =
    s.written.count x + s.dropped.count x + s.queued.count x + s.retryBuffer.count x + s.held.count x
  written : s.stats.written = tally s.written
  dropped : s.stats.dropped = tally s.dropped

def Sink.Fits (cfg : IngestionConfig) (s : Sink α) (items : List (Item α)) : Prop :=
  s.retryBuffer.length + items.length ≤ cfg.batchSize

/-- What the collector takes: a sentinel finds nothing collected, and what is written fits. -/
def Sink.KeepsGot (cfg : IngestionConfig) (s : Sink α) (items : List (Item α)) (again : Bool) :
    List (Option (Item α)) → Prop
  | [] => True
  | none :: queue => items = [] ∧ s.Fits cfg (Sink.drain queue cfg.batchSize).1
  | some item :: _ => (items ++ [item]).length < cfg.batchSize ∧ again = true ∨ s.Fits cfg (items ++ [item])

/-- A batch that is written fits with the retry buffer, a write that fails finds it empty, and a collector that is cancelled
holds nothing. -/
def Sink.Keeps (cfg : IngestionConfig) (s : Sink α) : IngestionEvent α → Prop
  | .flushNow => s.Fits cfg (Sink.drain s.queue cfg.batchSize).1
  | .got i again => ∀ items ∈ (mapGet s.coroutines i).bind Await.collecting?, s.KeepsGot cfg items again s.queue
  | .timedOut i => ∀ items ∈ (mapGet s.coroutines i).bind Await.collecting?, items = [] ∨ s.Fits cfg items
  | .failed _ => s.retryBuffer = []
  | .expired i => ∀ p ∈ (mapGet s.coroutines i).bind Await.waiting?, s.heldBy p.1 = []
  | _ => True

variable {s s' : Sink α} {items : List (Item α)} {i : ℕ} {ev : IngestionEvent α}

omit [DecidableEq α] in
theorem overflow_eq_nil : s.overflow cfg items = [] ↔ s.Fits cfg items := by
  unfold Sink.overflow Sink.Fits
  rw [List.drop_eq_nil_iff, List.length_append]

omit [DecidableEq α] in
theorem lostGot_eq_nil {again : Bool} : s.lostGot cfg items again = [] ↔ s.KeepsGot cfg items again s.queue := by
  unfold Sink.lostGot
  split
  · rename_i hqueue
    rw [hqueue]
    exact ⟨fun _ => trivial, fun _ => rfl⟩
  · rename_i queue hqueue
    rw [hqueue, List.append_eq_nil_iff, overflow_eq_nil]
    exact Iff.rfl
  · rename_i item queue hqueue
    rw [hqueue]
    unfold Sink.KeepsGot
    split_ifs with hagain
    · rw [Bool.and_eq_true, decide_eq_true_eq] at hagain
      exact ⟨fun _ => .inl hagain, fun _ => rfl⟩
    · rw [Bool.and_eq_true, decide_eq_true_eq] at hagain
      rw [overflow_eq_nil]
      exact ⟨.inr, fun h => h.resolve_left hagain⟩

omit [DecidableEq α] in
theorem lost_eq_nil (hs : s.Sound cfg) (h : s.step cfg ev = some s') : s.lost cfg ev = [] ↔ s.Keeps cfg ev := by
  cases step_cases h with
  | flushNow =>
    unfold Sink.lost Sink.Keeps
    dsimp only
    split_ifs with hany
    · exact overflow_eq_nil
    · have hnone : (Sink.drain s.queue cfg.batchSize).1 = [] := not_not.1 (not_or.1 hany).1
      have hretry : s.retryBuffer = [] := not_not.1 (not_or.1 hany).2
      refine ⟨fun _ => ?_, fun _ => rfl⟩
      unfold Sink.Fits
      rw [hnone, hretry]
      exact Nat.zero_le _
  | got i again items _ hi hroom h =>
    rw [lost_got hi]
    unfold Sink.Keeps
    dsimp only
    rw [hi]
    simpa only [Option.bind_some, Await.collecting?, Option.mem_def, Option.some.injEq, forall_eq'] using lostGot_eq_nil
  | timedOut i items hi hroom =>
    rw [lost_timedOut hi]
    unfold Sink.Keeps
    dsimp only
    rw [hi]
    simp only [Option.bind_some, Await.collecting?, Option.mem_def, Option.some.injEq, forall_eq']
    split_ifs with hempty
    · exact ⟨fun _ => .inl hempty, fun _ => rfl⟩
    · rw [overflow_eq_nil]
      exact ⟨.inr, fun h => h.resolve_left hempty⟩
  | failed i batch after hi =>
    rw [lost_failed hi]
    unfold Sink.Keeps
    obtain ⟨hne, hfits⟩ := hs.fits i batch after (mem_of_mapGet hi)
    dsimp only
    split_ifs with hretry
    · exact ⟨fun _ => hretry, fun _ => List.drop_eq_nil_of_le hfits⟩
    · exact ⟨fun h => absurd h hne, fun h => absurd h hretry⟩
  | expired i collector before hi hrunning =>
    rw [lost_expired hi]
    unfold Sink.Keeps
    dsimp only
    rw [hi]
    simp only [Option.bind_some, Await.waiting?, Option.mem_def, Option.some.injEq, forall_eq']
  | _ => exact ⟨fun _ => trivial, fun _ => rfl⟩

/-- What one event makes of the places. -/
theorem accounted_step (hs : s.Sound cfg) (ha : Accounted s) (h : s.step cfg ev = some s') :
    Accounted s' ↔ s.Keeps cfg ev := by
  have hs' : s'.Sound cfg := sound_step hs h
  rw [← lost_eq_nil hs h]
  have hplaces : ∀ x, s'.recorded.count x = s'.amount x + (s.lost cfg ev).count x := by
    intro x
    obtain ⟨hamount, hrecorded⟩ := amount_step (x := x) hs h
    have hbefore : s.recorded.count x = s.amount x := ha.places x
    rw [hrecorded, List.count_append]
    omega
  constructor
  · intro ha'
    rw [List.eq_nil_iff_forall_not_mem]
    intro x hx
    have hpos : 0 < (s.lost cfg ev).count x := List.count_pos_iff.2 hx
    have hafter : s'.recorded.count x = s'.amount x := ha'.places x
    have hbalance := hplaces x
    omega
  · intro hnil
    refine ⟨fun x => ?_, hs'.written, hs'.dropped⟩
    have hbalance := hplaces x
    rw [hnil] at hbalance
    exact hbalance

omit [DecidableEq α] in
theorem sound_empty : ({} : Sink α).Sound cfg := by
  refine ⟨rfl, rfl, List.nodup_nil, ?_, ?_, ?_, ?_⟩
  · rintro _ ⟨⟩
  · rintro _ ⟨⟩
  · rintro _ _ _ ⟨⟩
  · rintro _ _ _ ⟨⟩

theorem accounted_empty : Accounted ({} : Sink α) := ⟨fun _ => rfl, rfl, rfl⟩

/-- **Every item in one place**: at every moment of a run each recorded item is counted or in exactly one place, exactly if
every event of the run keeps what there is. -/
theorem accounted_iff {tr : List (IngestionEvent α × Sink α)} (h : Path (Sink.step cfg) ({} : Sink α) tr) :
    Throughout (fun _ _ s' => Accounted s') ({} : Sink α) tr ↔ Throughout (fun s ev _ => Sink.Keeps cfg s ev) {} tr :=
  throughout_iff (I := Sink.Sound cfg) (fun _ _ _ hs hst => sound_step hs hst)
    (fun _ _ _ hs ha hst => accounted_step hs ha hst) sound_empty accounted_empty h

end Accounting

end Transform.Telemetry
