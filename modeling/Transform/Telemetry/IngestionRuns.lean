import Transform.Telemetry.Accounting

/-!
# Telemetry.IngestionRuns — what a stop leaves

* `ingestion_accounted`: with `accounted_iff`, a `stop` that returns leaves what was recorded before it counted, where it finds
  a collector that runs, the queue fits in the last batch, nobody else is writing, and it does not run out of time.
* `sentinel_discards` is an item that vanishes with the sentinel.
-/

namespace Transform.Telemetry

open Lib

variable {α : Type} [DecidableEq α] {cfg : IngestionConfig}

/-! ## What a stop leaves -/

section Stop

/-- A collector that has not taken a sentinel. -/
def Await.runs : Await α → Bool
  | .collecting _ => true
  | .writing _ after => after = .loop
  | .waiting _ _ => false

namespace Sink

/-- The collector has not taken a sentinel. -/
def Runs (s : Sink α) (collector : ℕ) : Prop := ∃ await ∈ mapGet s.coroutines collector, await.runs = true

def heldBut (s : Sink α) (i : ℕ) : List (Item α) := (s.coroutines.eraseP (·.1 = i)).flatMap (·.2.held)

/-- All that is not counted is in the last batch of the coroutine. -/
def IdleBut (s : Sink α) (i : ℕ) : Prop := s.queued = [] ∧ s.retryBuffer = [] ∧ s.heldBut i = []

/-- All is counted. -/
def Idle (s : Sink α) : Prop := s.queued = [] ∧ s.retryBuffer = [] ∧ s.held = []

def Counts (s : Sink α) (items : List (Item α)) : Prop := ∀ x, items.count x ≤ s.written.count x + s.dropped.count x

/-- When the sentinel is taken, what is on the queue goes into the last batch and nobody else is writing. -/
def DrainsGot (cfg : IngestionConfig) (s : Sink α) (i : ℕ) : List (Option (Item α)) → Prop
  | none :: queue => (drain queue cfg.batchSize).2.filterMap id = [] ∧ s.heldBut i = []
  | _ => True

/-- A `stop` finds a collector that runs, or nothing but its last batch to wait for; the sentinel drains the queue; and a
`stop` whose time is over finds all counted. -/
def Drains (cfg : IngestionConfig) (s : Sink α) : IngestionEvent α → Prop
  | .stop => (s.task = none → s.Idle) ∧ ∀ collector ∈ s.task, s.Runs collector ∨ s.IdleBut collector
  | .got i _ => s.DrainsGot cfg i s.queue
  | .expired _ => s.Idle
  | _ => True

/-- The storage accepts what is written while a `stop` waits. -/
def Accepts (s : Sink α) : IngestionEvent α → Prop
  | .failed _ => ∀ p ∈ s.coroutines, p.2.waiting? = none
  | _ => True

/-- A `stop` that returns leaves what was recorded before it counted. -/
def Settles (s : Sink α) (ev : IngestionEvent α) (s' : Sink α) : Prop :=
  match ev with
  | .stop => s.task = none → s'.Counts s.recorded
  | .returned i | .expired i => ∀ p ∈ (mapGet s.coroutines i).bind Await.waiting?, s'.Counts p.2
  | _ => True

/-- While a `stop` waits, the collector runs, or what was recorded before is counted but for its last batch. -/
structure Waits (s : Sink α) : Prop where
  recorded : ∀ i collector before, (i, .waiting collector before) ∈ s.coroutines →
    ∀ x, before.count x ≤ s.recorded.count x
  settling : ∀ i collector before, (i, .waiting collector before) ∈ s.coroutines → s.Runs collector ∨
    ∀ x, before.count x ≤ s.written.count x + s.dropped.count x + (s.heldBy collector).count x

end Sink

variable {s s' : Sink α} {items batch before : List (Item α)} {i j : ℕ} {ev : IngestionEvent α}
  {r : Sink α × Option (Await α)}

theorem count_held {x : Item α} : s.held.count x = (s.heldBut i).count x + (s.heldBy i).count x := by
  unfold Sink.held Sink.heldBut Sink.heldBy
  rcases hi : mapGet s.coroutines i with _ | await
  · have hnone : s.coroutines.eraseP (·.1 = i) = s.coroutines := by
      refine List.eraseP_of_forall_not fun p hp hkey => ?_
      exact mapGet_eq_none.1 hi (List.mem_map.2 ⟨p, hp, by simpa using hkey⟩)
    rw [hnone]
    simp
  · obtain ⟨before, after, hentries, -, herase⟩ := mapGet_split hi
    rw [herase, hentries]
    simp only [List.flatMap_append, List.flatMap_cons, List.count_append, Option.map_some, Option.getD_some]
    omega

theorem counts_of_idleBut (ha : Accounted s) (h : s.IdleBut i) (x : Item α) :
    s.recorded.count x = s.written.count x + s.dropped.count x + (s.heldBy i).count x := by
  obtain ⟨hqueued, hretry, hheld⟩ := h
  rw [ha.places x, hqueued, hretry, count_held (i := i), hheld]
  simp

theorem counts_of_idle (ha : Accounted s) (h : s.Idle) (x : Item α) :
    s.recorded.count x = s.written.count x + s.dropped.count x := by
  obtain ⟨hqueued, hretry, hheld⟩ := h
  rw [ha.places x, hqueued, hretry, hheld]
  simp

omit [DecidableEq α] in
theorem mapGet_settle_of_ne (hcoroutines : r.1.coroutines = s.coroutines) (h : j ≠ i) :
    mapGet (Sink.settle i r).coroutines j = mapGet s.coroutines j := by
  obtain ⟨t, _ | new⟩ := r
  · show mapGet (t.coroutines.eraseP (·.1 = i)) j = _
    rw [show t.coroutines = s.coroutines from hcoroutines, mapGet_eraseP_of_ne h]
  · show mapGet (mapReplace i new t.coroutines) j = _
    rw [show t.coroutines = s.coroutines from hcoroutines, mapGet_mapReplace_of_ne h]

omit [DecidableEq α] in
theorem mapGet_settle_self (hs : s.Sound cfg) (hcoroutines : r.1.coroutines = s.coroutines)
    (hi : mapGet s.coroutines i ≠ none) : mapGet (Sink.settle i r).coroutines i = r.2 := by
  obtain ⟨old, hold⟩ := Option.ne_none_iff_exists'.1 hi
  obtain ⟨t, _ | new⟩ := r
  · show mapGet (t.coroutines.eraseP (·.1 = i)) i = none
    rw [show t.coroutines = s.coroutines from hcoroutines, mapGet_eraseP_self hs.ids]
  · show mapGet (mapReplace i new t.coroutines) i = some new
    rw [show t.coroutines = s.coroutines from hcoroutines, mapGet_mapReplace_self hold]

omit [DecidableEq α] in
/-- A coroutine that goes on is no `stop`. -/
theorem waiting_of_settle (hcoroutines : r.1.coroutines = s.coroutines) (hfine : ∀ await ∈ r.2, await.Fine cfg)
    {collector : ℕ} (h : (j, .waiting collector before) ∈ (Sink.settle i r).coroutines) :
    (j, .waiting collector before) ∈ s.coroutines := by
  obtain ⟨t, _ | new⟩ := r
  · have hmem : (j, .waiting collector before) ∈ t.coroutines.eraseP (·.1 = i) := h
    rw [show t.coroutines = s.coroutines from hcoroutines] at hmem
    exact List.eraseP_subset hmem
  · have hmem : (j, .waiting collector before) ∈ mapReplace i new t.coroutines := h
    rw [show t.coroutines = s.coroutines from hcoroutines] at hmem
    rcases mem_mapReplace hmem with heq | hmem
    · cases heq
      exact (hfine _ rfl).elim
    · exact hmem

/-- The collector still runs if it did, and no less is counted or in its last batch. -/
def Follows (s s' : Sink α) (collector : ℕ) : Prop :=
  (s.Runs collector → s'.Runs collector) ∧
    ∀ x, s.written.count x + s.dropped.count x + (s.heldBy collector).count x ≤
      s'.written.count x + s'.dropped.count x + (s'.heldBy collector).count x

/-- Whatever was recorded is counted but for the last batch of the collector. -/
def AllBut (s : Sink α) (collector : ℕ) : Prop :=
  ∀ x, s.recorded.count x ≤ s.written.count x + s.dropped.count x + (s.heldBy collector).count x

theorem follows_of_same {collector : ℕ} (hsame : mapGet s'.coroutines collector = mapGet s.coroutines collector)
    (hwritten : s.written.Sublist s'.written) (hdropped : s.dropped.Sublist s'.dropped) : Follows s s' collector := by
  unfold Follows Sink.Runs Sink.heldBy
  rw [hsame]
  refine ⟨id, fun x => ?_⟩
  have hw : s.written.count x ≤ s'.written.count x := hwritten.count_le x
  have hd : s.dropped.count x ≤ s'.dropped.count x := hdropped.count_le x
  omega

/-- No `stop` is called, and each that waits has its collector running, or is no worse off. -/
theorem waits_of (hw : s.Waits)
    (hmem : ∀ i collector before, (i, .waiting collector before) ∈ s'.coroutines →
      (i, .waiting collector before) ∈ s.coroutines)
    (hrecorded : ∀ x, s.recorded.count x ≤ s'.recorded.count x)
    (hkept : ∀ i collector before, (i, .waiting collector before) ∈ s.coroutines →
      s'.Runs collector ∨ Follows s s' collector ∨ AllBut s' collector) : s'.Waits where
  recorded i collector before h x := Nat.le_trans (hw.recorded i collector before (hmem i collector before h) x) (hrecorded x)
  settling i collector before h := by
    have hold := hmem i collector before h
    rcases hkept i collector before hold with hruns | ⟨hruns, hcounts⟩ | hall
    · exact .inl hruns
    · exact (hw.settling i collector before hold).imp hruns fun hsettling x => Nat.le_trans (hsettling x) (hcounts x)
    · exact .inr fun x => Nat.le_trans (Nat.le_trans (hw.recorded i collector before hold x) (hrecorded x)) (hall x)

/-- A coroutine goes on: those that wait for another are left where they are. -/
theorem waits_settle (hw : s.Waits) (hframe : Frame s r.1) (hfine : ∀ await ∈ r.2, await.Fine cfg)
    (hself : ∀ j before, (j, .waiting i before) ∈ s.coroutines →
      (Sink.settle i r).Runs i ∨ Follows s (Sink.settle i r) i ∨ AllBut (Sink.settle i r) i) :
    (Sink.settle i r).Waits := by
  have hlists : (Sink.settle i r).recorded = r.1.recorded ∧ (Sink.settle i r).written = r.1.written ∧
      (Sink.settle i r).dropped = r.1.dropped := by
    rcases r with ⟨t, _ | new⟩ <;> exact ⟨rfl, rfl, rfl⟩
  refine waits_of hw (fun j collector before => waiting_of_settle hframe.coroutines hfine) (fun x => ?_) ?_
  · exact Nat.le_of_eq (congrArg (List.count x) (hlists.1.trans hframe.recorded).symm)
  · intro j collector before hj
    by_cases hci : collector = i
    · subst hci
      exact hself j before hj
    · refine .inr (.inl (follows_of_same (mapGet_settle_of_ne hframe.coroutines hci) ?_ ?_))
      · rw [hlists.2.1]
        exact hframe.written
      · rw [hlists.2.2, hframe.dropped]

/-- A coroutine that is called leaves those that wait, and is to be counted with them if it is a `stop`. -/
theorem waits_launch (hs : s.Sound cfg) (hw : s.Waits) (hframe : Frame { s with task := r.1.task } r.1)
    (hnew : ∀ collector before, r.2 = some (.waiting collector before) → collector < s.next ∧
      (∀ x, before.count x ≤ s.recorded.count x) ∧ (s.Runs collector ∨
        ∀ x, before.count x ≤ s.written.count x + s.dropped.count x + (s.heldBy collector).count x)) :
    (Sink.launch r).Waits := by
  obtain ⟨hrecorded, hcoroutines, hnext, -, hdropped, hwritten⟩ := hframe
  have hlists : (Sink.launch r).recorded = s.recorded ∧ s.written.Sublist (Sink.launch r).written ∧
      (Sink.launch r).dropped = s.dropped := by
    rcases r with ⟨t, _ | new⟩ <;> exact ⟨hrecorded, hwritten, hdropped⟩
  have hsame : ∀ collector, collector < s.next →
      mapGet (Sink.launch r).coroutines collector = mapGet s.coroutines collector := by
    intro collector hlt
    rcases r with ⟨t, _ | new⟩
    · exact congrArg (mapGet · collector) hcoroutines
    · show mapGet ((t.next, new) :: t.coroutines) collector = _
      rw [mapGet_cons, if_neg (by rw [show t.next = s.next from hnext]; omega),
        show t.coroutines = s.coroutines from hcoroutines]
  have hmem : ∀ j collector before, (j, .waiting collector before) ∈ (Sink.launch r).coroutines →
      (j, .waiting collector before) ∈ s.coroutines ∨ r.2 = some (.waiting collector before) := by
    intro j collector before hj
    rcases r with ⟨t, _ | new⟩
    · rw [← show t.coroutines = s.coroutines from hcoroutines]
      exact .inl hj
    · have hj' : (j, .waiting collector before) ∈ (t.next, new) :: t.coroutines := hj
      rw [show t.coroutines = s.coroutines from hcoroutines] at hj'
      rcases List.mem_cons.1 hj' with heq | hold
      · cases heq
        exact .inr rfl
      · exact .inl hold
  have hfollows : ∀ collector, collector < s.next → Follows s (Sink.launch r) collector := fun collector hlt =>
    follows_of_same (hsame collector hlt) hlists.2.1 (by rw [hlists.2.2])
  refine ⟨fun j collector before hj x => ?_, fun j collector before hj => ?_⟩
  · rw [hlists.1]
    rcases hmem j collector before hj with hold | hnew'
    · exact hw.recorded j collector before hold x
    · exact (hnew collector before hnew').2.1 x
  · rcases hmem j collector before hj with hold | hnew'
    · have hlt : collector < s.next := Nat.lt_trans (hs.waits j collector before hold) (hs.below _ hold)
      obtain ⟨hruns, hcounts⟩ := hfollows collector hlt
      exact (hw.settling j collector before hold).imp hruns fun h x => Nat.le_trans (h x) (hcounts x)
    · obtain ⟨hlt, -, hsettling⟩ := hnew collector before hnew'
      obtain ⟨hruns, hcounts⟩ := hfollows collector hlt
      exact hsettling.imp hruns fun h x => Nat.le_trans (h x) (hcounts x)

omit [DecidableEq α] in
theorem heldBut_settle (hs : s.Sound cfg) (hcoroutines : r.1.coroutines = s.coroutines) :
    (Sink.settle i r).heldBut i = s.heldBut i := by
  unfold Sink.heldBut
  obtain ⟨t, _ | new⟩ := r
  · have hnone : mapGet (s.coroutines.eraseP (·.1 = i)) i = none := mapGet_eraseP_self hs.ids
    have hgone : (s.coroutines.eraseP (·.1 = i)).eraseP (·.1 = i) = s.coroutines.eraseP (·.1 = i) := by
      refine List.eraseP_of_forall_not fun p hp hkey => ?_
      exact mapGet_eq_none.1 hnone (List.mem_map.2 ⟨p, hp, by simpa using hkey⟩)
    show ((t.coroutines.eraseP (·.1 = i)).eraseP (·.1 = i)).flatMap (·.2.held) = _
    rw [show t.coroutines = s.coroutines from hcoroutines, hgone]
  · show ((mapReplace i new t.coroutines).eraseP (·.1 = i)).flatMap (·.2.held) = _
    rw [show t.coroutines = s.coroutines from hcoroutines, eraseP_mapReplace]

omit [DecidableEq α] in
theorem write_emptied {after : After} :
    (s.write cfg items after).1.retryBuffer = [] ∧ (s.write cfg items after).1.queue = s.queue := by
  unfold Sink.write
  dsimp only
  split_ifs <;> exact ⟨rfl, rfl⟩

/-- The sentinel that is put back is nothing to write. -/
theorem drained_putStop {n : ℕ} (h : (Sink.drain s.queue n).2.filterMap id = []) :
    (Sink.drain (s.putStop cfg).queue n).2.filterMap id = [] := by
  rw [List.eq_nil_iff_forall_not_mem]
  intro x hx
  have hpos := List.count_pos_iff.2 hx
  have hafter := @count_drain _ _ x (s.putStop cfg).queue n
  have hbefore := @count_drain _ _ x s.queue n
  have hsame : ((s.putStop cfg).queue.filterMap id).count x = (s.queue.filterMap id).count x := by
    rcases @putStop_cases _ cfg s with heq | heq
    · rw [heq]
    · rw [heq]
      simp
  rw [drain_putStop, hsame] at hafter
  rw [h, List.count_nil] at hbefore
  omega

/-- After the sentinel all that is not counted is in the last batch. -/
theorem idleBut_finishRun {queue : List (Option (Item α))} (hs : s.Sound cfg)
    (hdrained : (Sink.drain queue cfg.batchSize).2.filterMap id = []) (hheld : s.heldBut i = []) :
    (Sink.settle i (Sink.finishRun cfg { s with queue := queue })).IdleBut i := by
  have hframe := @frame_finishRun _ cfg { s with queue := queue }
  have hempty := @write_emptied _ cfg
    { Sink.putStop cfg { s with queue := queue } with
      queue := (Sink.drain (Sink.putStop cfg { s with queue := queue }).queue cfg.batchSize).2 }
    (Sink.drain (Sink.putStop cfg { s with queue := queue }).queue cfg.batchSize).1 .finish
  have hlists : (Sink.settle i (Sink.finishRun cfg { s with queue := queue })).queue =
      (Sink.finishRun cfg { s with queue := queue }).1.queue ∧
      (Sink.settle i (Sink.finishRun cfg { s with queue := queue })).retryBuffer =
      (Sink.finishRun cfg { s with queue := queue }).1.retryBuffer := by
    rcases Sink.finishRun cfg { s with queue := queue } with ⟨t, _ | new⟩ <;> exact ⟨rfl, rfl⟩
  refine ⟨?_, hlists.2.trans hempty.1, (heldBut_settle hs hframe.coroutines).trans hheld⟩
  unfold Sink.queued
  rw [hlists.1]
  show (Sink.write cfg _ _ _).1.queue.filterMap id = []
  rw [hempty.2]
  exact drained_putStop (s := { s with queue := queue }) hdrained

omit [DecidableEq α] in
theorem collected_runs : ∃ await ∈ (s.collected cfg items).2, await.runs = true := by
  unfold Sink.collected Sink.write
  dsimp only
  split_ifs <;> exact ⟨_, rfl, rfl⟩

omit [DecidableEq α] in
theorem collect_runs {item : Item α} {again : Bool} :
    ∃ await ∈ (s.collect cfg items item again).2, await.runs = true := by
  unfold Sink.collect
  split_ifs
  · exact ⟨_, rfl, rfl⟩
  · exact collected_runs

omit [DecidableEq α] in
theorem runs_settle (hs : s.Sound cfg) (hcoroutines : r.1.coroutines = s.coroutines) (hi : mapGet s.coroutines i ≠ none)
    (h : ∃ await ∈ r.2, await.runs = true) : (Sink.settle i r).Runs i := by
  unfold Sink.Runs
  rw [mapGet_settle_self hs hcoroutines hi]
  exact h

theorem waits_got {again : Bool} (hs : s.Sound cfg) (ha' : Accounted s') (hw : s.Waits)
    (hd : s.Drains cfg (.got i again)) (hi : mapGet s.coroutines i = some (.collecting items))
    (h : s.got cfg i items again = some s') : s'.Waits := by
  have hne : mapGet s.coroutines i ≠ none := by
    rw [hi]
    exact Option.some_ne_none _
  replace hd : s.DrainsGot cfg i s.queue := hd
  unfold Sink.got at h
  split at h
  · cases h
  · rename_i queue hqueue
    obtain rfl := Option.some.inj h
    rw [hqueue] at hd
    obtain ⟨-, hfine⟩ := @fine_finishRun _ cfg { s with queue := queue } ⟨hs.written, hs.dropped⟩
    refine waits_settle hw (frame_trans frame_queue frame_finishRun) hfine fun j before _ => .inr (.inr fun x => ?_)
    exact Nat.le_of_eq (counts_of_idleBut ha' (idleBut_finishRun hs hd.1 hd.2) x)
  · rename_i item queue hqueue
    obtain rfl := Option.some.inj h
    have hframe := @frame_collect _ cfg { s with queue := queue } items item again
    obtain ⟨-, hfine⟩ := @fine_collect _ cfg { s with queue := queue } items item again ⟨hs.written, hs.dropped⟩
    exact waits_settle hw (frame_trans frame_queue hframe) hfine fun j before _ =>
      .inl (runs_settle hs hframe.coroutines hne collect_runs)

omit [DecidableEq α] in
theorem enqueue_lists {item : Item α} : (s.enqueue cfg item).coroutines = s.coroutines ∧
    (s.enqueue cfg item).written = s.written ∧ s.dropped.Sublist (s.enqueue cfg item).dropped ∧
    s.recorded.Sublist (s.enqueue cfg item).recorded := by
  unfold Sink.enqueue
  split_ifs
  · exact ⟨rfl, rfl, .refl _, .refl _⟩
  · unfold Sink.put
    split_ifs
    · exact ⟨rfl, rfl, .refl _, List.sublist_cons_self _ _⟩
    · exact ⟨rfl, rfl, List.sublist_cons_self _ _, List.sublist_cons_self _ _⟩

theorem follows_ended {t : Sink α} {await : Await α} (hs : s.Sound cfg) (hi : mapGet s.coroutines i = some await)
    (hrests : await.runs = false) (hcoroutines : t.coroutines = s.coroutines)
    (hcounts : ∀ x, s.written.count x + s.dropped.count x + await.held.count x ≤ t.written.count x + t.dropped.count x) :
    Follows s (Sink.settle i (t, none)) i := by
  have hne : mapGet s.coroutines i ≠ none := by
    rw [hi]
    exact Option.some_ne_none _
  have hnone : mapGet (Sink.settle i (t, none)).coroutines i = none := mapGet_settle_self hs hcoroutines hne
  refine ⟨fun ⟨other, hother, hruns⟩ => ?_, fun x => ?_⟩
  · obtain rfl := Option.some.inj (hi.symm.trans hother)
    rw [hrests] at hruns
    cases hruns
  · unfold Sink.heldBy
    rw [hi, hnone]
    exact hcounts x

/-- **The step lemma** of those that wait. -/
theorem waits_step (hs : s.Sound cfg) (ha : Accounted s) (ha' : Accounted s') (hw : s.Waits) (hd : s.Drains cfg ev)
    (haccepts : s.Accepts ev) (h : s.step cfg ev = some s') : s'.Waits := by
  cases step_cases h with
  | record item =>
    obtain ⟨hcoroutines, hwritten, hdropped, hrecorded⟩ := @enqueue_lists _ cfg s item
    refine waits_of hw (fun j c b hj => hcoroutines ▸ hj) (fun x => hrecorded.count_le x) fun j c b _ => .inr (.inl ?_)
    exact follows_of_same (congrArg (mapGet · c) hcoroutines) (hwritten ▸ .refl _) hdropped
  | start =>
    unfold Sink.start
    split_ifs
    · exact hw
    · exact waits_launch hs hw ⟨rfl, rfl, rfl, rfl, rfl, .refl _⟩ fun _ _ h => by cases h
  | flushNow =>
    unfold Sink.flushNow
    dsimp only
    split_ifs
    · obtain ⟨-, hfine⟩ := @fine_write _ cfg
        { s with queue := (Sink.drain s.queue cfg.batchSize).2 } (Sink.drain s.queue cfg.batchSize).1 .finish
        ⟨hs.written, hs.dropped⟩
      have hframe := @frame_write _ cfg
        { s with queue := (Sink.drain s.queue cfg.batchSize).2 } (Sink.drain s.queue cfg.batchSize).1 .finish
      refine waits_launch hs hw ⟨hframe.recorded, hframe.coroutines, hframe.next, rfl, hframe.dropped, hframe.written⟩ ?_
      exact fun _ _ h => (hfine _ h).elim
    · exact ⟨hw.recorded, hw.settling⟩
  | stop =>
    unfold Sink.stop
    split
    · exact hw
    · rename_i collector htask
      have hframe := @frame_putStop _ cfg s
      refine waits_launch hs hw ⟨hframe.recorded, hframe.coroutines, hframe.next, rfl, hframe.dropped, hframe.written⟩ ?_
      rintro _ _ ⟨⟩
      exact ⟨hs.task collector htask, fun x => Nat.le_refl _,
        (hd.2 collector htask).imp id fun hidle x => Nat.le_of_eq (counts_of_idleBut ha hidle x)⟩
  | got i again items _ hi hroom h =>
    exact waits_got hs ha' hw hd hi h
  | timedOut i items hi hroom =>
    obtain ⟨-, hfine⟩ := @fine_collected _ cfg _ items (tallied_of_sound hs)
    refine waits_settle hw frame_collected hfine fun j before _ => .inl (runs_settle hs frame_collected.coroutines ?_
      collected_runs)
    rw [hi]
    exact Option.some_ne_none _
  | stored i batch after hi =>
    have hne : mapGet s.coroutines i ≠ none := by
      rw [hi]
      exact Option.some_ne_none _
    refine @waits_settle _ _ cfg _ _ _ hw frame_countWritten fine_resume fun j before _ => ?_
    cases after with
    | loop => exact .inl (runs_settle hs rfl hne ⟨_, rfl, rfl⟩)
    | finish =>
      refine .inr (.inl (follows_ended hs hi rfl rfl fun x => ?_))
      show _ + _ + batch.count x ≤ (batch ++ s.written).count x + s.dropped.count x
      rw [List.count_append]
      omega
  | failed i batch after hi =>
    exact @waits_settle _ _ cfg _ _ _ hw frame_writeFailed fine_resume fun j before hj =>
      absurd (haccepts _ hj) (Option.some_ne_none _)
  | returned i collector before hi hdone =>
    have hsettle : (Sink.settle i (s, none)).Waits :=
      @waits_settle _ _ cfg _ _ _ hw frame_refl (by rintro _ ⟨⟩) fun j before _ =>
        .inr (.inl (follows_ended hs hi rfl rfl fun x => Nat.le_refl _))
    exact ⟨hsettle.recorded, hsettle.settling⟩
  | expired i collector before hi hrunning =>
    refine waits_of hw (fun j c b hj => ?_) (fun x => Nat.le_refl _) fun j c b _ => .inr (.inr fun x => ?_)
    · exact List.eraseP_subset (List.eraseP_subset hj)
    · have hidle := counts_of_idle ha hd x
      exact Nat.le_trans (Nat.le_of_eq hidle) (Nat.le_add_right _ _)

/-- A `stop` that returns. -/
theorem settles_step (ha : Accounted s) (hw : s.Waits) (hd : s.Drains cfg ev) (h : s.step cfg ev = some s') :
    s.Settles ev s' := by
  cases step_cases h with
  | stop =>
    intro htask
    unfold Sink.stop
    rw [htask]
    exact fun x => Nat.le_of_eq (counts_of_idle ha (hd.1 htask) x)
  | returned i collector before hi hdone =>
    intro p hp
    rw [hi] at hp
    obtain rfl : (collector, before) = p := Option.some.inj hp
    rcases hw.settling i collector before (mem_of_mapGet hi) with hruns | hcounts
    · exfalso
      obtain ⟨await, hawait, -⟩ := hruns
      rw [hdone] at hawait
      cases hawait
    · intro x
      have hcount := hcounts x
      unfold Sink.heldBy at hcount
      rw [hdone] at hcount
      exact hcount
  | expired i collector before hi hrunning =>
    intro p hp
    rw [hi] at hp
    obtain rfl : (collector, before) = p := Option.some.inj hp
    exact fun x => Nat.le_trans (hw.recorded i collector before (mem_of_mapGet hi) x) (Nat.le_of_eq (counts_of_idle ha hd x))
  | _ => trivial

def Proceeds (cfg : IngestionConfig) (s : Sink α) (ev : IngestionEvent α) (_ : Sink α) : Prop :=
  s.Keeps cfg ev ∧ s.Drains cfg ev ∧ s.Accepts ev

/-- **Accounting**: at every moment of a run each recorded item is counted or in exactly one place, exactly if every event
keeps what there is; and where in addition the events drain the sink, a `stop` that returns leaves what was recorded before it
counted. -/
theorem ingestion_accounted {tr : List (IngestionEvent α × Sink α)} (h : Path (Sink.step cfg) ({} : Sink α) tr) :
    (Throughout (fun _ _ s' => Accounted s') ({} : Sink α) tr ↔ Throughout (fun s ev _ => Sink.Keeps cfg s ev) {} tr) ∧
      (Throughout (Proceeds cfg) ({} : Sink α) tr → Throughout Sink.Settles {} tr) := by
  refine ⟨accounted_iff h, fun hproceeds => ?_⟩
  have hwaits : ({} : Sink α).Waits := by
    refine ⟨?_, ?_⟩ <;> rintro _ _ _ ⟨⟩
  refine throughout_of_step (I := fun s : Sink α => s.Sound cfg ∧ Accounted s ∧ s.Waits) (fun s ev s' hI hst hp => ?_)
    ⟨sound_empty, accounted_empty, hwaits⟩ h hproceeds
  obtain ⟨hs, ha, hw⟩ := hI
  obtain ⟨hkeeps, hdrains, haccepts⟩ := hp
  have ha' : Accounted s' := (accounted_step hs ha hst).2 hkeeps
  exact ⟨⟨sound_step hs hst, ha', waits_step hs ha ha' hw hdrains haccepts hst⟩, settles_step ha hw hdrains hst⟩

end Stop

/-! ## Concrete runs -/

section Concrete

def small : IngestionConfig where
  batchSize := 2
  maxQueue := 4

def request (n : ℕ) : Item ℕ := ⟨.event, n⟩

def stopsClean : List (IngestionEvent ℕ × Sink ℕ) :=
  trace (Sink.step small) {} [.start, .record (request 1), .record (request 2), .got 0 true, .got 0 true, .stop, .stored 0,
    .got 0 true, .returned 1]

instance decidableFits (s : Sink ℕ) (items : List (Item ℕ)) : Decidable (s.Fits small items) :=
  inferInstanceAs (Decidable (s.retryBuffer.length + items.length ≤ small.batchSize))

instance decidableKeepsGot (s : Sink ℕ) (items : List (Item ℕ)) (again : Bool) :
    ∀ queue, Decidable (s.KeepsGot small items again queue)
  | [] => isTrue trivial
  | none :: _ => inferInstanceAs (Decidable (items = [] ∧ s.Fits small _))
  | some item :: _ => inferInstanceAs (Decidable ((items ++ [item]).length < small.batchSize ∧ again = true ∨ s.Fits small _))

instance decidableKeeps (s : Sink ℕ) : ∀ ev, Decidable (s.Keeps small ev)
  | .flushNow => decidableFits s _
  | .got i again =>
    inferInstanceAs (Decidable (∀ items ∈ (mapGet s.coroutines i).bind Await.collecting?, s.KeepsGot small items again s.queue))
  | .timedOut i =>
    inferInstanceAs (Decidable (∀ items ∈ (mapGet s.coroutines i).bind Await.collecting?, items = [] ∨ s.Fits small items))
  | .failed _ => inferInstanceAs (Decidable (s.retryBuffer = []))
  | .expired i => inferInstanceAs (Decidable (∀ p ∈ (mapGet s.coroutines i).bind Await.waiting?, s.heldBy p.1 = []))
  | .record _ | .start | .stop | .stored _ | .returned _ => isTrue trivial

instance decidableIdle (s : Sink ℕ) : Decidable s.Idle := inferInstanceAs (Decidable (_ ∧ _ ∧ _))

instance decidableIdleBut (s : Sink ℕ) (i : ℕ) : Decidable (s.IdleBut i) := inferInstanceAs (Decidable (_ ∧ _ ∧ _))

instance decidableRuns (s : Sink ℕ) (collector : ℕ) : Decidable (s.Runs collector) :=
  inferInstanceAs (Decidable (∃ await ∈ mapGet s.coroutines collector, await.runs = true))

instance decidableDrainsGot (s : Sink ℕ) (i : ℕ) : ∀ queue, Decidable (s.DrainsGot small i queue)
  | none :: _ => inferInstanceAs (Decidable (_ ∧ s.heldBut i = []))
  | [] | some _ :: _ => isTrue trivial

instance decidableDrains (s : Sink ℕ) : ∀ ev, Decidable (s.Drains small ev)
  | .stop => inferInstanceAs (Decidable ((s.task = none → s.Idle) ∧
      ∀ collector ∈ s.task, s.Runs collector ∨ s.IdleBut collector))
  | .got i _ => decidableDrainsGot s i s.queue
  | .expired _ => decidableIdle s
  | .record _ | .start | .flushNow | .timedOut _ | .stored _ | .failed _ | .returned _ => isTrue trivial

instance decidableAccepts (s : Sink ℕ) : ∀ ev, Decidable (s.Accepts ev)
  | .failed _ => inferInstanceAs (Decidable (∀ p ∈ s.coroutines, p.2.waiting? = none))
  | .record _ | .start | .flushNow | .stop | .got _ _ | .timedOut _ | .stored _ | .returned _ | .expired _ => isTrue trivial

instance decidableProceeds (s : Sink ℕ) (ev : IngestionEvent ℕ) (s' : Sink ℕ) : Decidable (Proceeds small s ev s') :=
  inferInstanceAs (Decidable (s.Keeps small ev ∧ s.Drains small ev ∧ s.Accepts ev))

theorem ingestion_accounted_clean : stopsClean.length = 9 ∧
    Throughout (fun _ _ s' => Accounted s') ({} : Sink ℕ) stopsClean ∧ Throughout Sink.Settles {} stopsClean := by
  have hproceeds : Throughout (Proceeds small) {} stopsClean :=
    @of_decide_eq_true _ (@decidableThroughout _ _ _ decidableProceeds _ _) (by decide +kernel)
  have haccounted := @ingestion_accounted _ _ small _ (path_trace _ _ : Path (Sink.step small) {} stopsClean)
  exact ⟨by decide +kernel, haccounted.1.2 (throughout_mono (fun _ _ _ h => h.1) hproceeds), haccounted.2 hproceeds⟩

/-- A request is in the hands of the collector when the sentinel arrives. -/
def stopsEarly : List (IngestionEvent ℕ × Sink ℕ) :=
  trace (Sink.step small) {} [.start, .record (request 1), .got 0 true, .stop, .got 0 true, .returned 1]

def Vanished (s : Sink ℕ) (x : Item ℕ) : Prop := s.recorded.count x = 1 ∧ s.amount x = 0

instance decidableVanished (s : Sink ℕ) (x : Item ℕ) : Decidable (Vanished s x) := inferInstanceAs (Decidable (_ ∧ _))

theorem stopsEarly_ends : Vanished (lastState {} stopsEarly) (request 1) :=
  @of_decide_eq_true _ (decidableVanished _ _) (by decide +kernel)

/-- **An item that vanishes with the sentinel**: the sink has stopped, and the item is neither counted nor anywhere. -/
theorem sentinel_discards : Path (Sink.step small) ({} : Sink ℕ) stopsEarly ∧ stopsEarly.length = 6 ∧
    Vanished (lastState {} stopsEarly) (request 1) ∧
    ¬ Throughout (fun _ _ s' => Accounted s') ({} : Sink ℕ) stopsEarly := by
  refine ⟨path_trace _ _, by decide +kernel, stopsEarly_ends, fun h => ?_⟩
  have hlast : Accounted (lastState {} stopsEarly) := last_of_throughout accounted_empty h
  have hplaces : (lastState {} stopsEarly).recorded.count (request 1) = (lastState {} stopsEarly).amount (request 1) :=
    hlast.places (request 1)
  obtain ⟨hrecorded, hamount⟩ := stopsEarly_ends
  rw [hrecorded, hamount] at hplaces
  cases hplaces

end Concrete

end Transform.Telemetry
