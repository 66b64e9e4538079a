import Transform.Workspaces.RowSystem

/-!
# Workspaces.RowRuns — what recording activity does to the row of a workspace

The UPDATE of an activity sets the columns that the activity only read, and the count is a value computed before it.
`activity_kept`: where every UPDATE finds the row as its call loaded it, no activity changes a setting, and the count is
the number of executions created.  `activity_reverts` is a start that undoes a rename, and two submits counted as one.
-/

namespace Transform.Workspaces

open Lib Conversions

/-- The columns that only an edit changes. -/
def Workspace.settings (workspace : Workspace) : String × String × RuntimeConfig × WorkspaceState :=
  (workspace.name, workspace.description, workspace.runtimeConfig, workspace.state)

variable {ctx : WorkspaceContext} {w : RowWorld} {i j : ℕ} {party : RowParty} {g : RowGrip} {id : String}
  {ev : Event WorkspaceSig}

/-! ## What a call knows of the rows -/

section Borne

/-- Rows are under their keys, and only a call that has begun is to count something. -/
structure RowKeyed (w : RowWorld) : Prop where
  keyed : ∀ id row, w.rows id = some row → row.workspaceId = id
  begun : ∀ id, ∀ j ∈ w.pending id, j ∈ w.begun

/-- What a call knows is so: the workspace it loaded has the owner it had, its new id is its own, and it is to count
exactly what it has created. -/
structure RowGrip.Borne (g : RowGrip) (w : RowWorld) (i : ℕ) : Prop where
  seen : ∀ loaded, g.seen = some loaded → w.seen i = some loaded
  owner : ∀ loaded, g.seen = some loaded → ∀ row, w.rows loaded.workspaceId = some row → row.userId = loaded.userId
  fresh : ∀ id, g.fresh = some id → w.issued id = some i ∧ id ∉ w.executions
  uncounted : ∀ id, (w.pending id).count i = if g.uncounted = some id then 1 else 0
  begun : i ∈ w.begun

theorem rows_apply {row : Workspace} (h : (w.apply i ev).rows id = some row) :
    ∃ old, w.rows id = some old ∧ row.workspaceId = old.workspaceId ∧ row.userId = old.userId := by
  unfold RowWorld.apply at h
  split at h
  case h_3 workspace _ _ =>
    replace h : Function.update w.rows workspace.workspaceId ((w.rows workspace.workspaceId).map fun row =>
      if row.userId = workspace.userId then row.written workspace else row) id = some row := h
    by_cases hid : id = workspace.workspaceId
    · subst hid
      rw [Function.update_self] at h
      obtain ⟨old, hold, rfl⟩ := Option.map_eq_some_iff.1 h
      refine ⟨old, hold, ?_⟩
      split_ifs
      · exact ⟨rfl, rfl⟩
      · exact ⟨rfl, rfl⟩
    · rw [Function.update_of_ne hid] at h
      exact ⟨row, h, rfl, rfl⟩
  case h_7 workspaceId userId _ _ =>
    replace h : Function.update w.rows workspaceId ((w.rows workspaceId).filter (·.userId ≠ userId)) id = some row := h
    by_cases hid : id = workspaceId
    · subst hid
      rw [Function.update_self] at h
      obtain ⟨hrow, -⟩ := Option.filter_eq_some_iff.1 h
      exact ⟨row, hrow, rfl, rfl⟩
    · rw [Function.update_of_ne hid] at h
      exact ⟨row, h, rfl, rfl⟩
  all_goals exact ⟨row, h, rfl, rfl⟩

theorem seen_other (hji : j ≠ i) : (w.apply i ev).seen j = w.seen j := by
  unfold RowWorld.apply
  split
  case h_2 => exact Function.update_of_ne hji _ _
  all_goals rfl

theorem issued_other {id : String} (hissued : w.issued id = some j) (hstored : id ∉ w.executions) (hji : j ≠ i)
    (hv : g.Borne w i) (hpre : RowPermitted party g ev.op) (hall : w.Allowed ev) :
    (w.apply i ev).issued id = some j ∧ id ∉ (w.apply i ev).executions := by
  have hstore : ∀ row : Execution, g.fresh = some row.executionId → id ∉ row.executionId :: w.executions := by
    intro row hfresh hmem
    rcases List.mem_cons.1 hmem with rfl | hmem
    · rw [(hv.fresh _ hfresh).1] at hissued
      exact hji (Option.some.inj hissued).symm
    · exact hstored hmem
  unfold RowWorld.apply
  split
  case h_1 new _ _ =>
    have hnew : w.issued new = none ∧ new ∉ w.executions := hall
    refine ⟨?_, hstored⟩
    show Function.update w.issued new (some i) id = some j
    rw [Function.update_of_ne, hissued]
    rintro rfl
    rw [hnew.1] at hissued
    cases hissued
  case h_5 row _ _ _ => exact ⟨hissued, hstore row hpre.1⟩
  case h_6 row _ _ => exact ⟨hissued, hstore row hpre.1⟩
  all_goals exact ⟨hissued, hstored⟩

theorem pending_other (hji : j ≠ i) : ((w.apply i ev).pending id).count j = (w.pending id).count j := by
  have herase : ∀ workspaceId, (Function.update w.pending workspaceId ((w.pending workspaceId).erase i) id).count j =
      (w.pending id).count j := by
    intro workspaceId
    by_cases hid : id = workspaceId
    · subst hid
      rw [Function.update_self, List.count_erase_of_ne hji]
    · rw [Function.update_of_ne hid]
  unfold RowWorld.apply
  split
  case h_3 workspace _ _ => exact herase workspace.workspaceId
  case h_4 workspace _ _ => exact herase workspace.workspaceId
  case h_5 row _ _ _ =>
    show (Function.update w.pending row.workspaceId (i :: w.pending row.workspaceId) id).count j = _
    by_cases hid : id = row.workspaceId
    · subst hid
      rw [Function.update_self, List.count_cons_of_ne hji.symm]
    · rw [Function.update_of_ne hid]
  all_goals rfl

/-- A call adds nobody else to those that are to count. -/
theorem mem_pending (h : j ∈ (w.apply i ev).pending id) : j = i ∨ j ∈ w.pending id := by
  by_cases hji : j = i
  · exact .inl hji
  · right
    have hcount := @pending_other w i j id ev hji
    exact List.count_pos_iff.1 (hcount ▸ List.count_pos_iff.2 h)

theorem begun_apply : (w.apply i ev).begun = w.begun := by
  unfold RowWorld.apply
  split <;> rfl

theorem rowKeyed_apply (h : RowKeyed w) (hv : g.Borne w i) : RowKeyed (w.apply i ev) where
  keyed id row hrow := by
    obtain ⟨old, hold, hid, -⟩ := rows_apply hrow
    rw [hid]
    exact h.keyed id old hold
  begun id j hj := by
    rw [begun_apply]
    rcases mem_pending hj with rfl | hold
    · exact hv.begun
    · exact h.begun id j hold

theorem rowBorne_other {g' : RowGrip} (hji : j ≠ i) (hv : g.Borne w i) (hpre : RowPermitted party g ev.op)
    (hall : w.Allowed ev) (hv' : g'.Borne w j) : g'.Borne (w.apply i ev) j where
  seen loaded hseen := by
    rw [seen_other hji]
    exact hv'.seen loaded hseen
  owner loaded hseen row hrow := by
    obtain ⟨old, hold, -, huser⟩ := rows_apply hrow
    rw [huser]
    exact hv'.owner loaded hseen old hold
  fresh id hfresh := by
    obtain ⟨hissued, hstored⟩ := hv'.fresh id hfresh
    exact issued_other hissued hstored hji hv hpre hall
  uncounted id := by rw [pending_other hji, hv'.uncounted]
  begun := by
    rw [begun_apply]
    exact hv'.begun

theorem uncounted_update {workspace loaded : Workspace} (hv : g.Borne w i) (hid : workspace.workspaceId = loaded.workspaceId)
    (hcounts : g.uncounted = party.counts loaded) (id : String) :
    (Function.update w.pending workspace.workspaceId ((w.pending workspace.workspaceId).erase i) id).count i = 0 := by
  by_cases h : id = workspace.workspaceId
  · subst h
    rw [Function.update_self, List.count_erase_self, hv.uncounted]
    split_ifs
    · rfl
    · rfl
  · rw [Function.update_of_ne h, hv.uncounted, if_neg]
    rw [hcounts]
    unfold RowParty.counts
    split
    · exact fun heq => h ((Option.some.inj heq).symm.trans hid.symm)
    · exact (Option.some_ne_none id).symm

theorem recorded_ids {loaded workspace : Workspace} (h : Recorded loaded workspace party) :
    workspace.workspaceId = loaded.workspaceId ∧ workspace.userId = loaded.userId := by
  cases party with
  | start _ _ | stop _ _ _ | submit _ =>
    obtain ⟨now, rfl⟩ := h
    exact ⟨rfl, rfl⟩
  | update _ _ _ | archive _ _ | reactivate _ _ | delete _ _ => exact ⟨h.1, h.2.1⟩

theorem rowBorne_apply (hI : RowKeyed w) (hv : g.Borne w i) (hpre : RowPermitted party g ev.op) (hall : w.Allowed ev) :
    (rowStep g ev).Borne (w.apply i ev) i := by
  have howner : ∀ loaded, g.seen = some loaded → ∀ row, (w.apply i ev).rows loaded.workspaceId = some row →
      row.userId = loaded.userId := by
    intro loaded hseen row hrow
    obtain ⟨old, hold, -, huser⟩ := rows_apply hrow
    rw [huser]
    exact hv.owner loaded hseen old hold
  obtain ⟨op, out, took, hk⟩ := ev
  cases op with
  | uuid4 =>
    rcases out with e | new
    · exact ⟨hv.seen, howner, hv.fresh, hv.uncounted, hv.begun⟩
    · have hnew : w.issued new = none ∧ new ∉ w.executions := hall
      refine ⟨hv.seen, howner, fun id hfresh => ?_, hv.uncounted, hv.begun⟩
      obtain rfl : new = id := Option.some.inj hfresh
      exact ⟨Function.update_self .., hnew.2⟩
  | getWorkspace workspaceId userId =>
    rcases out with e | found
    · exact ⟨hv.seen, howner, hv.fresh, hv.uncounted, hv.begun⟩
    · have hfound : found = w.owned workspaceId userId := hall
      have hset : Function.update w.seen i found i = found := Function.update_self ..
      refine ⟨fun loaded hseen => hset.trans hseen, fun loaded hseen row hrow => ?_, hv.fresh, hv.uncounted, hv.begun⟩
      have hloaded : w.owned workspaceId userId = some loaded := hfound.symm.trans hseen
      obtain ⟨hstored, -⟩ := Option.filter_eq_some_iff.1 hloaded
      have hid : loaded.workspaceId = workspaceId := hI.keyed _ _ hstored
      rw [hid] at hrow
      obtain rfl : loaded = row := Option.some.inj (hstored.symm.trans hrow)
      rfl
  | updateWorkspace workspace =>
    obtain ⟨loaded, hseen, hrecorded, hcounts⟩ := hpre
    have huncounted : ∀ id, (Function.update w.pending workspace.workspaceId
        ((w.pending workspace.workspaceId).erase i) id).count i = if none = some id then 1 else 0 := by
      intro id
      rw [if_neg (Option.some_ne_none id).symm]
      exact uncounted_update hv (recorded_ids hrecorded).1 hcounts id
    cases took with
    | false => exact ⟨hv.seen, howner, hv.fresh, huncounted, hv.begun⟩
    | true => exact ⟨hv.seen, howner, hv.fresh, huncounted, hv.begun⟩
  | insertExecution row =>
    obtain ⟨hfresh, hnone⟩ := hpre
    rcases out with e | u
    · cases took with
      | false => exact ⟨hv.seen, howner, hv.fresh, hv.uncounted, hv.begun⟩
      | true => exact ⟨hv.seen, howner, fun _ h => (by cases h), hv.uncounted, hv.begun⟩
    · refine ⟨hv.seen, howner, fun _ h => (by cases h), fun id => ?_, hv.begun⟩
      show (Function.update w.pending row.workspaceId (i :: w.pending row.workspaceId) id).count i =
        if some row.workspaceId = some id then 1 else 0
      have hzero : ∀ id, (w.pending id).count i = 0 := by
        intro id
        rw [hv.uncounted, hnone, if_neg (Option.some_ne_none id).symm]
      by_cases hid : id = row.workspaceId
      · subst hid
        rw [Function.update_self, List.count_cons_self, hzero, if_pos rfl]
      · rw [Function.update_of_ne hid, hzero, if_neg fun h => hid (Option.some.inj h).symm]
  | deleteWorkspace workspaceId userId =>
    cases took with
    | false => exact ⟨hv.seen, howner, hv.fresh, hv.uncounted, hv.begun⟩
    | true => exact ⟨hv.seen, howner, hv.fresh, hv.uncounted, hv.begun⟩
  | _ => exact ⟨hv.seen, howner, hv.fresh, hv.uncounted, hv.begun⟩

theorem row_rely (hI : RowKeyed w) (hv : g.Borne w i) (hall : w.Allowed ev) : (rowMonitor party).rely g ev := by
  obtain ⟨op, out, took, hk⟩ := ev
  cases op with
  | getWorkspace workspaceId userId =>
    rcases out with e | found | row
    · trivial
    · trivial
    · have hfound : some row = w.owned workspaceId userId := hall
      obtain ⟨hstored, -⟩ := Option.filter_eq_some_iff.1 hfound.symm
      exact hI.keyed _ _ hstored
  | findExecutionByKey workspaceId key =>
    rcases out with e | found | row
    · trivial
    · trivial
    · exact fun hfresh => (hv.fresh _ hfresh).2 hall
  | insertExecution row =>
    rcases out with e | u
    · exact hall
    · trivial
  | _ => trivial

theorem rows_watched : (rowSystem ctx).Watched rowMonitor {} RowKeyed (fun w i _ g => g.Borne w i)
    fun _ _ _ _ => True where
  start := by
    rintro w w' i party p hI ⟨hnew, rfl, rfl⟩
    refine ⟨⟨hI.keyed, fun id j hj => List.mem_cons_of_mem i (hI.begun id j hj)⟩, ⟨⟨fun _ h => (by cases h),
      fun _ h => (by cases h), fun _ h => (by cases h), fun id => ?_, List.mem_cons_self ..⟩, row_permitted party rfl⟩,
      fun j party' g' _ hv => ⟨hv.seen, hv.owner, hv.fresh, hv.uncounted, List.mem_cons_of_mem i hv.begun⟩⟩
    rw [if_neg (Option.some_ne_none id).symm]
    exact List.count_eq_zero.2 fun hmem => hnew (hI.begun id i hmem)
  act := by
    intro c i party ev g hI hv hpre hall _
    exact ⟨rowKeyed_apply hI hv, row_rely hI hv hall, rowBorne_apply hI hv hpre hall⟩
  other := by
    intro c i party ev g hI hv hpre hall _ j party' g' q hji _ hv'
    exact rowBorne_other hji hv hpre hall hv'

end Borne

/-! ## Calls in turn -/

section Counting

/-- Every execution of the workspace is counted, but for those that a call is still to count. -/
def CountsAt (id : String) (w : RowWorld) : Prop :=
  ∀ row, w.rows id = some row → row.executionCount + (w.pending id).length = w.created id

/-- The UPDATE of the row finds the count that its call loaded and, if it records an activity, the settings; and what is
created in the workspace while it has a row is counted: its INSERT answers, and its UPDATE takes effect. -/
def WritesAsLoaded (id : String) (w : RowWorld) (i : ℕ) (party : RowParty) : Event WorkspaceSig → Prop
  | ⟨.updateWorkspace workspace, _, true, _⟩ => workspace.workspaceId = id → ∀ loaded ∈ w.seen i, ∀ row ∈ w.rows id,
      row.executionCount = loaded.executionCount ∧ (party.isActivity = true → row.settings = loaded.settings)
  | ⟨.updateWorkspace workspace, _, false, _⟩ => workspace.workspaceId = id → i ∈ w.pending id → w.rows id = none
  | ⟨.insertExecution row, .error _, true, _⟩ => row.workspaceId = id → w.rows id = none
  | _ => True

/-- The same of an exchange of a run. -/
def WritesAsLoadedAt (ctx : WorkspaceContext) (id : String) (c : (rowSystem ctx).Config) (i : ℕ) (party : RowParty)
    (ev : Event WorkspaceSig) : Prop := WritesAsLoaded id c.world i party ev

/-- The step of a run: it writes as loaded, and no call ends between its INSERT and its UPDATE. -/
def InTurn (id : String) (c : (rowSystem ctx).Config) : (rowSystem ctx).Label → (rowSystem ctx).Config → Prop
  | .act i party ev, _ => WritesAsLoaded id c.world i party ev
  | .exit i, _ => i ∈ RowWorld.pending c.world id → RowWorld.rows c.world id = none
  | .start _ _, _ => True

theorem rows_quiet (hupdate : ∀ workspace, ev.op ≠ .updateWorkspace workspace)
    (hdelete : ∀ workspaceId userId, ev.op ≠ .deleteWorkspace workspaceId userId) : (w.apply i ev).rows = w.rows := by
  unfold RowWorld.apply
  split
  case h_3 => exact absurd rfl (hupdate _)
  case h_7 => exact absurd rfl (hdelete _ _)
  all_goals rfl

/-- The row after the UPDATE of a call: it is the one the call writes. -/
theorem row_write {workspace loaded : Workspace} {row : Workspace} (hv : g.Borne w i) (hseen : g.seen = some loaded)
    (hids : workspace.workspaceId = loaded.workspaceId ∧ workspace.userId = loaded.userId)
    (h : (w.write workspace).rows workspace.workspaceId = some row) :
    ∃ old, w.rows workspace.workspaceId = some old ∧ row = old.written workspace := by
  unfold RowWorld.write at h
  dsimp only at h
  rw [Function.update_self] at h
  obtain ⟨old, hold, rfl⟩ := Option.map_eq_some_iff.1 h
  refine ⟨old, hold, if_pos ?_⟩
  rw [hids.2]
  refine hv.owner loaded hseen old ?_
  rw [← hids.1, hold]

theorem recorded_count {workspace loaded : Workspace} (h : Recorded loaded workspace party) :
    workspace.executionCount = loaded.executionCount + if party.counts loaded = some loaded.workspaceId then 1 else 0 := by
  cases party with
  | start _ _ | stop _ _ _ =>
    obtain ⟨now, rfl⟩ := h
    rfl
  | submit _ =>
    obtain ⟨now, rfl⟩ := h
    show loaded.executionCount + 1 = loaded.executionCount + if some loaded.workspaceId = some loaded.workspaceId then 1 else 0
    rw [if_pos rfl]
  | update _ _ _ | archive _ _ | reactivate _ _ | delete _ _ => exact h.2.2

theorem countsAt_write {workspace : Workspace} (hI : CountsAt id w) (hv : g.Borne w i)
    (hpre : RowPermitted party g (.updateWorkspace workspace))
    (hφ : workspace.workspaceId = id → ∀ loaded ∈ w.seen i, ∀ row ∈ w.rows id,
      row.executionCount = loaded.executionCount ∧ (party.isActivity = true → row.settings = loaded.settings)) :
    CountsAt id ((w.write workspace).counted i workspace.workspaceId) := by
  obtain ⟨loaded, hseen, hrecorded, hcounts⟩ := hpre
  have hids := recorded_ids hrecorded
  intro row hrow
  by_cases hid : workspace.workspaceId = id
  · subst hid
    obtain ⟨old, hold, rfl⟩ := row_write hv hseen hids hrow
    have hfound := (hφ rfl loaded (hv.seen loaded hseen) old hold).1
    have hbefore := hI old hold
    have hlength := List.length_erase (a := i) (l := w.pending workspace.workspaceId)
    have hpending := hv.uncounted workspace.workspaceId
    rw [hcounts, hids.1] at hpending
    show workspace.executionCount + (Function.update w.pending workspace.workspaceId
      ((w.pending workspace.workspaceId).erase i) workspace.workspaceId).length = w.created workspace.workspaceId
    rw [Function.update_self, hlength, recorded_count hrecorded, ← hfound, ← hbefore]
    rw [← hids.1] at hpending ⊢
    by_cases hone : party.counts loaded = some workspace.workspaceId
    · rw [if_pos hone] at hpending ⊢
      have hmem : i ∈ w.pending workspace.workspaceId := List.count_pos_iff.1 (by omega)
      have hpos := List.length_pos_of_mem hmem
      rw [if_pos hmem]
      omega
    · rw [if_neg hone] at hpending ⊢
      rw [if_neg (List.count_eq_zero.1 hpending)]
      omega
  · have hrows : (w.write workspace).rows id = w.rows id := Function.update_of_ne (Ne.symm hid) _ _
    have hold : w.rows id = some row := hrows.symm.trans hrow
    show row.executionCount + (Function.update w.pending workspace.workspaceId
      ((w.pending workspace.workspaceId).erase i) id).length = w.created id
    rw [Function.update_of_ne (Ne.symm hid)]
    exact hI row hold

theorem countsAt_apply (hI : CountsAt id w) (hv : g.Borne w i) (hpre : RowPermitted party g ev.op)
    (hφ : WritesAsLoaded id w i party ev) : CountsAt id (w.apply i ev) := by
  obtain ⟨op, out, took, hk⟩ := ev
  cases op with
  | uuid4 =>
    rcases out with e | new
    · exact hI
    · exact hI
  | getWorkspace _ _ =>
    rcases out with e | found
    · exact hI
    · exact hI
  | updateWorkspace workspace =>
    cases took with
    | true => exact countsAt_write hI hv hpre hφ
    | false =>
      -- nothing is written: there is nothing to count, or no row
      intro row hrow
      have hbefore := hI row hrow
      show row.executionCount + (Function.update w.pending workspace.workspaceId
        ((w.pending workspace.workspaceId).erase i) id).length = w.created id
      by_cases hid : workspace.workspaceId = id
      · subst hid
        have hrow' : w.rows workspace.workspaceId = some row := hrow
        have hnot : i ∉ w.pending workspace.workspaceId := by
          intro hmem
          rw [hφ rfl hmem] at hrow'
          cases hrow'
        rw [Function.update_self, List.erase_of_not_mem hnot]
        exact hbefore
      · rw [Function.update_of_ne (Ne.symm hid)]
        exact hbefore
  | insertExecution execution =>
    rcases out with e | u
    · cases took with
      | false => exact hI
      | true =>
        intro row hrow
        have hbefore := hI row hrow
        show row.executionCount + (w.pending id).length =
          Function.update w.created execution.workspaceId (w.created execution.workspaceId + 1) id
        rw [Function.update_of_ne, hbefore]
        rintro rfl
        have hnone : w.rows execution.workspaceId = none := hφ rfl
        replace hrow : w.rows execution.workspaceId = some row := hrow
        rw [hnone] at hrow
        cases hrow
    · intro row hrow
      have hbefore := hI row hrow
      show row.executionCount +
        (Function.update w.pending execution.workspaceId (i :: w.pending execution.workspaceId) id).length =
          Function.update w.created execution.workspaceId (w.created execution.workspaceId + 1) id
      by_cases hid : id = execution.workspaceId
      · subst hid
        rw [Function.update_self, Function.update_self, List.length_cons, ← hbefore]
        omega
      · rw [Function.update_of_ne hid, Function.update_of_ne hid, hbefore]
  | deleteWorkspace workspaceId userId =>
    cases took with
    | false => exact hI
    | true =>
      intro row hrow
      replace hrow : Function.update w.rows workspaceId ((w.rows workspaceId).filter (·.userId ≠ userId)) id = some row := hrow
      by_cases hid : id = workspaceId
      · subst hid
        rw [Function.update_self] at hrow
        obtain ⟨hold, -⟩ := Option.filter_eq_some_iff.1 hrow
        exact hI row hold
      · rw [Function.update_of_ne hid] at hrow
        exact hI row hrow
  | _ => exact hI

theorem counting_kept : (rowSystem ctx).Kept rowMonitor {} RowKeyed (fun w i _ g => g.Borne w i) (CountsAt id)
    (fun _ _ _ _ => True) (WritesAsLoadedAt ctx id) where
  start := by
    rintro w w' i party p - hI ⟨-, rfl, -⟩
    exact ⟨hI, trivial, fun _ _ _ _ _ => trivial⟩
  act := by
    intro c i party ev g _ hv hI _ hpre _ hφ
    exact ⟨countsAt_apply hI hv hpre hφ, trivial⟩
  other := by
    intro c i party ev g _ _ _ _ _ _ _ j party' g' q _ _ _ _
    trivial

/-- What is to be counted in a workspace that has a row is of calls that run. -/
def LivePending (id : String) (c : (rowSystem ctx).Config) : Prop :=
  RowWorld.rows c.world id ≠ none → ∀ j ∈ RowWorld.pending c.world id, c.threads j ≠ none

theorem rows_none (h : w.rows id = none) : (w.apply i ev).rows id = none := by
  by_contra hsome
  obtain ⟨row, hrow⟩ := Option.ne_none_iff_exists'.1 hsome
  obtain ⟨old, hold, -⟩ := rows_apply hrow
  rw [h] at hold
  cases hold

theorem livePending_step {c c' : (rowSystem ctx).Config} {l : (rowSystem ctx).Label} (h : LivePending id c)
    (hs : (rowSystem ctx).Step c l c') (hφ : InTurn id c l c') : LivePending id c' := by
  intro hrow j hj
  cases hs with
  | @start i party p w' hfree hspawn =>
    obtain ⟨-, rfl, -⟩ := hspawn
    by_cases hji : j = i
    · subst hji
      show Function.update c.threads j _ j ≠ none
      rw [Function.update_self]
      exact Option.some_ne_none _
    · show Function.update c.threads i _ j ≠ none
      rw [Function.update_of_ne hji]
      exact h hrow j hj
  | @act i party op k hrun out took hk hall =>
    by_cases hji : j = i
    · subst hji
      show Function.update c.threads j _ j ≠ none
      rw [Function.update_self]
      exact Option.some_ne_none _
    · show Function.update c.threads i _ j ≠ none
      rw [Function.update_of_ne hji]
      rcases mem_pending hj with hself | hold
      · exact absurd hself hji
      · exact h (fun hnone => hrow (rows_none hnone)) j hold
  | @exit i =>
    have hrow' : RowWorld.rows c.world id ≠ none := hrow
    by_cases hji : j = i
    · subst hji
      exact absurd (hφ hj) hrow'
    · show Function.update c.threads i none j ≠ none
      rw [Function.update_of_ne hji]
      exact h hrow' j hj

/-- No activity has changed a setting of the workspace: not by this step. -/
def SettingsKept (id : String) (c : (rowSystem ctx).Config) : (rowSystem ctx).Label → (rowSystem ctx).Config → Prop
  | .act _ party _, c' => party.isActivity = true → ∀ row ∈ RowWorld.rows c.world id, ∀ row' ∈ RowWorld.rows c'.world id,
      row'.settings = row.settings
  | _, _ => True

/-- The count of the workspace is the number of executions created in it, but for those of calls that are between their
INSERT and their UPDATE. -/
def Counted (id : String) (c : (rowSystem ctx).Config) : Prop :=
  ∀ row ∈ RowWorld.rows c.world id, row.executionCount +
    ((RowWorld.pending c.world id).filter fun j => (c.threads j).isSome).length = RowWorld.created c.world id

theorem counted_of_live {c : (rowSystem ctx).Config} (hI : CountsAt id c.world) (hlive : LivePending id c) :
    Counted id c := by
  intro row hrow
  have hrow' : RowWorld.rows c.world id = some row := hrow
  have hall : (RowWorld.pending c.world id).filter (fun j => (c.threads j).isSome) = RowWorld.pending c.world id := by
    refine List.filter_eq_self.2 fun j hj => Option.isSome_iff_ne_none.2 (hlive ?_ j hj)
    rw [hrow']
    exact Option.some_ne_none row
  rw [hall]
  exact hI row hrow'

theorem recorded_settings {workspace loaded : Workspace} (h : Recorded loaded workspace party)
    (hactivity : party.isActivity = true) : workspace.settings = loaded.settings := by
  cases party with
  | start _ _ | stop _ _ _ | submit _ =>
    obtain ⟨now, rfl⟩ := h
    rfl
  | update _ _ _ | archive _ _ | reactivate _ _ | delete _ _ => cases hactivity

theorem settings_apply (hv : g.Borne w i) (hpre : RowPermitted party g ev.op) (hφ : WritesAsLoaded id w i party ev)
    (hactivity : party.isActivity = true) {row row' : Workspace} (hrow : w.rows id = some row)
    (hrow' : (w.apply i ev).rows id = some row') : row'.settings = row.settings := by
  have hsame : w.rows id = some row' → row'.settings = row.settings := by
    intro h
    obtain rfl : row = row' := Option.some.inj (hrow.symm.trans h)
    rfl
  obtain ⟨op, out, took, hk⟩ := ev
  cases op with
  | updateWorkspace workspace =>
    cases took with
    | false => exact hsame hrow'
    | true =>
      obtain ⟨loaded, hseen, hrecorded, -⟩ := hpre
      by_cases hid : workspace.workspaceId = id
      · subst hid
        obtain ⟨old, hold, rfl⟩ := row_write hv hseen (recorded_ids hrecorded) hrow'
        obtain rfl : row = old := Option.some.inj (hrow.symm.trans hold)
        have hfound := (hφ rfl loaded (hv.seen loaded hseen) row hold).2 hactivity
        rw [hfound, ← recorded_settings hrecorded hactivity]
        rfl
      · refine hsame ?_
        have hrows : (w.write workspace).rows id = w.rows id := Function.update_of_ne (Ne.symm hid) _ _
        exact hrows.symm.trans hrow'
  | deleteWorkspace workspaceId userId =>
    cases took with
    | false => exact hsame hrow'
    | true =>
      obtain ⟨old, hold, -⟩ := rows_apply hrow'
      refine hsame ?_
      replace hrow' : Function.update w.rows workspaceId ((w.rows workspaceId).filter (·.userId ≠ userId)) id =
        some row' := hrow'
      by_cases hid : id = workspaceId
      · subst hid
        rw [Function.update_self] at hrow'
        exact (Option.filter_eq_some_iff.1 hrow').1
      · rw [Function.update_of_ne hid] at hrow'
        exact hrow'
  | _ => exact hsame (by rw [← hrow', rows_quiet (by simp) (by simp)])

theorem watched_row : (rowSystem ctx).Watched rowMonitor {} (fun w => RowKeyed w ∧ CountsAt id w)
    (fun w i _ g => g.Borne w i ∧ True) (WritesAsLoadedAt ctx id) :=
  watched_of_kept rows_watched counting_kept

theorem actOnly_of_inTurn {c c' : (rowSystem ctx).Config} {l : (rowSystem ctx).Label} (h : InTurn id c l c') :
    ActOnly (WritesAsLoadedAt ctx id) c l c' := by
  cases l with
  | act _ _ _ => exact h
  | start _ _ | exit _ => trivial

/-- **Activity undoes nothing**: in any interleaving in which every call writes the row of a workspace as it loaded it,
no start, stop or submit changes a setting, and the count is the number of executions created. -/
theorem activity_kept {c : (rowSystem ctx).Config} {tr : List ((rowSystem ctx).Label × (rowSystem ctx).Config)}
    (hc : RowStart c) (hs : (rowSystem ctx).Steps c tr) (id : String) (hφ : Along (InTurn id) c tr) :
    Along (fun c l c' => SettingsKept id c l c' ∧ Counted id c') c tr := by
  have hP := preserved_of_watched (@watched_row ctx id)
  obtain ⟨hfree, rows, executions, created, hrows, hworld⟩ := hc
  have hstart : (rowSystem ctx).Inv (fun w => RowKeyed w ∧ CountsAt id w)
      (Sys.Thread rowMonitor fun w i _ g => g.Borne w i ∧ True) c := by
    refine watched_start hfree ?_
    rw [hworld]
    exact ⟨⟨fun id row hrow => (hrows id row hrow).1, fun _ _ h => (by cases h)⟩, fun row hrow => (hrows id row hrow).2⟩
  have hlive : LivePending id c := by
    intro _ j hj
    rw [hworld] at hj
    cases hj
  refine along_of_step (I := fun c => (rowSystem ctx).Inv (fun w => RowKeyed w ∧ CountsAt id w)
    (Sys.Thread rowMonitor fun w i _ g => g.Borne w i ∧ True) c ∧ LivePending id c) ?_ ⟨hstart, hlive⟩ hs hφ
  rintro c l c' ⟨hI, hlive⟩ hst hφ
  have hI' := inv_step hP hI hst (actOnly_of_inTurn hφ)
  have hlive' := livePending_step hlive hst hφ
  refine ⟨⟨hI', hlive'⟩, ?_, counted_of_live hI'.1.2 hlive'⟩
  cases hst with
  | @act i party op k hrun out took hk hall =>
    obtain ⟨g, hv, hpre⟩ := watched_call hI hrun
    exact fun hactivity row hrow row' hrow' => @settings_apply _ _ _ _ _ ⟨op, out, took, hk⟩ hv.1 hpre hφ hactivity _ _ hrow hrow'
  | start _ _ | exit => trivial

end Counting

/-! ## Runs -/

section Concrete

abbrev labSystem : Sys WorkspaceSig := rowSystem smallContext

/-- The rows answer as they stand; there is no runtime yet, and every other call is answered. -/
def rowReply (w : RowWorld) : (op : WorkspaceOp) → Except WorkError op.Ans
  | .uuid4 => .ok ((["e-1", "e-2"].find? fun id => w.issued id = none).getD "")
  | .now => .ok (0 : ℤ)
  | .getWorkspace workspaceId userId => .ok (w.owned workspaceId userId)
  | .updateWorkspace _ => .ok true
  | .getRuntime _ => .ok none
  | .insertRuntime _ => .ok ()
  | .saveRuntime _ => .ok ()
  | .findReusableRevision _ _ _ => .ok none
  | .listActiveExecutions _ => .ok []
  | .insertExecution _ => .ok ()
  | .publish _ => .ok ()
  | .provider (.ensureWorkspaceState _) => .ok "volume"
  | .provider (.createRuntime _) => .ok { providerRef := "c-1", state := .running }
  | _ => .error { name := "TimeoutError", message := "" }

def rowDriver : labSystem.Driver where
  reply := rowReply
  check w _ _ ev := @decide _ (RowWorld.decidableAllowed w ev)
  sound h := @of_decide_eq_true _ (RowWorld.decidableAllowed _ _) h

def beginCall (party : RowParty) (i : ℕ) : labSystem.Starter i where
  start w := if i ∈ RowWorld.begun w then none else
    some (party, party.program smallContext, { w with begun := i :: RowWorld.begun w })
  sound h := by
    split_ifs at h with hnew
    cases h
    exact ⟨hnew, rfl, rfl⟩

abbrev LabMoves : Type := List labSystem.Move

def labMoves (i : ℕ) : ℕ → LabMoves
  | 0 => []
  | n + 1 => .go i :: labMoves i n

/-- One workspace, in which nothing has run. -/
def labRows : labSystem.Config :=
  ⟨({ rows := fun id => if id = "w-1" then some someWorkspace else none } : RowWorld), fun _ => none⟩

theorem start_labRows : RowStart labRows := by
  refine ⟨fun _ => rfl, _, _, _, fun id row hrow => ?_, rfl⟩
  split_ifs at hrow with hid
  cases hrow
  exact ⟨hid.symm, rfl⟩

def labRun (moves : List labSystem.Move) : List (labSystem.Label × labSystem.Config) := Sys.drive rowDriver labRows moves

def rename : RowParty := .update "w-1" 7 { name := some "study" }

def submitOne : RowParty := .submit { workspaceId := "w-1", userId := 7, mode := .script, source := "print(1)" }

/-- The workspace is renamed, started, and given two submits, one call after the other. -/
def callsInTurn : List (labSystem.Label × labSystem.Config) :=
  labRun (([.start 0 (beginCall rename 0)] : LabMoves) ++ labMoves 0 2 ++
    ([.start 1 (beginCall (.start "w-1" 7) 1)] : LabMoves) ++ labMoves 1 12 ++
    ([.start 2 (beginCall submitOne 2)] : LabMoves) ++ labMoves 2 7 ++
    ([.start 3 (beginCall submitOne 3)] : LabMoves) ++ labMoves 3 7)

/-- The workspace is renamed while its container starts. -/
def renamedDuringStart : List (labSystem.Label × labSystem.Config) :=
  labRun (([.start 0 (beginCall (.start "w-1" 7) 0)] : LabMoves) ++ labMoves 0 8 ++
    ([.start 1 (beginCall rename 1)] : LabMoves) ++ labMoves 1 2 ++ labMoves 0 4)

/-- Two submits load the workspace before either counts. -/
def submitsTogether : List (labSystem.Label × labSystem.Config) :=
  labRun (([.start 0 (beginCall submitOne 0)] : LabMoves) ++ labMoves 0 4 ++
    ([.start 1 (beginCall submitOne 1)] : LabMoves) ++ labMoves 1 6 ++ labMoves 0 2)

instance decidableWritesAsLoaded (id : String) (w : RowWorld) (i : ℕ) (party : RowParty) (ev : RowWorld.Exchange) :
    Decidable (WritesAsLoaded id w i party ev) := by
  unfold WritesAsLoaded
  split <;> infer_instance

instance decidableInTurn (c : labSystem.Config) (l : labSystem.Label) (c' : labSystem.Config) :
    Decidable (InTurn "w-1" c l c') := by
  unfold InTurn
  split
  · exact decidableWritesAsLoaded ..
  · infer_instance
  · infer_instance

instance decidableSettingsKept (c : labSystem.Config) (l : labSystem.Label) (c' : labSystem.Config) :
    Decidable (SettingsKept "w-1" c l c') := by
  unfold SettingsKept
  split <;> infer_instance

instance decidableCounted (c : labSystem.Config) (l : labSystem.Label) (c' : labSystem.Config) :
    Decidable ((fun _ _ c' => Counted "w-1" c' : labSystem.Config → labSystem.Label → labSystem.Config → Prop) c l c') := by
  unfold Counted
  infer_instance

theorem activity_kept_inTurn :
    Along (fun c l c' => SettingsKept "w-1" c l c' ∧ Counted "w-1" c') labRows callsInTurn := by
  have hturn : Along (InTurn "w-1") labRows callsInTurn :=
    @of_decide_eq_true _ (@decidableAlong _ _ _ decidableInTurn _ _) (by decide +kernel)
  exact activity_kept start_labRows (steps_drive rowDriver _ _) "w-1" hturn

/-- A start writes back the name that it loaded; and of two submits the second writes the count of the first. -/
theorem activity_reverts : RowStart labRows ∧
    (labSystem.Steps labRows renamedDuringStart ∧ ¬ Along (SettingsKept "w-1") labRows renamedDuringStart) ∧
    labSystem.Steps labRows submitsTogether ∧ ¬ Along (fun _ _ c' => Counted "w-1" c') labRows submitsTogether := by
  refine ⟨start_labRows, ⟨steps_drive rowDriver _ _, ?_⟩, steps_drive rowDriver _ _, ?_⟩
  · exact @of_decide_eq_true _ (@instDecidableNot _ (@decidableAlong _ _ _ decidableSettingsKept _ _)) (by decide +kernel)
  · exact @of_decide_eq_true _ (@instDecidableNot _ (@decidableAlong _ _ _ decidableCounted _ _)) (by decide +kernel)

end Concrete

end Transform.Workspaces
