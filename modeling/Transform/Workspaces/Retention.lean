import Transform.Workspaces.Processor
import Transform.Workspaces.Rows
import Mathlib.Data.List.Sort

/-!
# Workspaces.Retention — which snapshots of a workspace are kept

`_prune_revisions` reads the newest `snapshot_retention + 20` revisions, of every status, and deletes the READY ones
beyond the first `snapshot_retention` of them.  `retained_iff` says when the READY revisions that remain are the newest
of all: when there are no more than that, or when all of them are among the rows read.
-/

namespace Transform.Workspaces

open Lib Conversions Queues

/-! ## The newest of a list -/

section Newest

variable {α κ : Type} {r : ℕ} {rows seen : List α}

theorem subset_of_length_le (hseen : seen.Nodup) (hsub : seen ⊆ rows) (hle : rows.length ≤ seen.length) :
    ∀ a ∈ rows, a ∈ seen := by
  have hperm : seen.Perm rows := (List.subperm_of_subset hseen hsub).perm_of_length_le hle
  exact fun a ha => hperm.mem_iff.2 ha

variable [DecidableEq α] [LinearOrder κ] {key : α → κ}

/-- `kept` are the `r` newest of `rows`, or all of them where there are fewer. -/
structure Newest (key : α → κ) (r : ℕ) (rows kept : List α) : Prop where
  sublist : kept.Sublist rows
  count : kept.length = min r rows.length
  newest : ∀ a ∈ kept, ∀ b ∈ rows, b ∉ kept → key b ≤ key a

/-- What is left of `rows` when what follows the first `r` of `seen` is deleted. -/
def prunedBy (r : ℕ) (seen rows : List α) : List α := rows.filter fun a => a ∉ seen.drop r

theorem length_filter_mem {stale : List α} (hrows : rows.Nodup) (hstale : stale.Nodup) (hsub : stale ⊆ rows) :
    (rows.filter (· ∈ stale)).length = stale.length := by
  refine List.Perm.length_eq ((List.perm_ext_iff_of_nodup (hrows.filter _) hstale).2 fun a => ?_)
  rw [List.mem_filter, decide_eq_true_eq]
  exact ⟨fun h => h.2, fun h => ⟨hsub h, h⟩⟩

theorem length_prunedBy (hrows : rows.Nodup) (hseen : seen.Nodup) (hsub : seen ⊆ rows) :
    (prunedBy r seen rows).length + (seen.length - r) = rows.length := by
  have hstale : (seen.drop r).Nodup := hseen.sublist (List.drop_sublist r seen)
  have hdeleted := length_filter_mem hrows hstale fun a ha => hsub (List.mem_of_mem_drop ha)
  have hsplit := List.length_eq_length_filter_add (l := rows) (· ∈ seen.drop r)
  rw [hdeleted, List.length_drop] at hsplit
  have hkept : rows.filter (fun a => !decide (a ∈ seen.drop r)) = prunedBy r seen rows := by
    refine List.filter_congr fun a _ => ?_
    rw [decide_not]
  rw [hkept] at hsplit
  omega

theorem newest_prunedBy_iff (hrows : rows.Nodup) (hseen : seen.Nodup) (hsub : seen ⊆ rows)
    (hsorted : seen.Pairwise fun a b => key b ≤ key a) :
    Newest key r rows (prunedBy r seen rows) ↔ rows.length ≤ r ∨ ∀ a ∈ rows, a ∈ seen := by
  have hlength := length_prunedBy (r := r) hrows hseen hsub
  have hle : seen.length ≤ rows.length := (List.subperm_of_subset hseen hsub).length_le
  constructor
  · intro h
    have hcount := h.count
    by_cases hfew : rows.length ≤ r
    · exact .inl hfew
    · exact .inr (subset_of_length_le hseen hsub (by omega))
  · intro h
    refine ⟨List.filter_sublist, ?_, fun a ha b hb hgone => ?_⟩
    · rcases h with hfew | hall
      · omega
      · have hseen' : rows.length ≤ seen.length := (List.subperm_of_subset hrows hall).length_le
        omega
    · have hstale : b ∈ seen.drop r := by
        by_contra hnot
        exact hgone (List.mem_filter.2 ⟨hb, decide_eq_true hnot⟩)
      obtain ⟨ha, hkept⟩ := List.mem_filter.1 ha
      have hall : a ∈ seen := by
        rcases h with hfew | hall
        · have hnil : seen.drop r = [] := List.drop_eq_nil_of_le (hle.trans hfew)
          rw [hnil] at hstale
          cases hstale
        · exact hall a ha
      rw [← List.take_append_drop r seen] at hall hsorted
      have hfirst : a ∈ seen.take r := (List.mem_append.1 hall).resolve_right (of_decide_eq_true hkept)
      exact (List.pairwise_append.1 hsorted).2.2 a hfirst b hstale

end Newest

/-! ## The table -/

section Table

/-- A row of `runtime_image_revisions`, with the column that the entity's own code does not read. -/
structure RevisionRecord where
  row : RuntimeImageRevision
  createdAt : ℤ
  deriving DecidableEq, Repr

/-- The rows of `runtime_image_revisions`; their ids are the primary key. -/
structure RevisionTable where
  rows : List RevisionRecord
  primary : (rows.map fun record => record.row.revisionId).Nodup

/-- The row after `update_revision`, where it is the one of the revision. -/
def RevisionRecord.updated (record : RevisionRecord) (revision : RuntimeImageRevision) : RevisionRecord :=
  if record.row.IsAt revision.revisionId revision.workspaceId then { record with row := record.row.updated revision }
  else record

theorem updated_revisionId (record : RevisionRecord) (revision : RuntimeImageRevision) :
    (record.updated revision).row.revisionId = record.row.revisionId := by
  unfold RevisionRecord.updated
  split_ifs
  · rfl
  · rfl

namespace RevisionTable

variable (table : RevisionTable)

def get (revisionId workspaceId : String) : Option RuntimeImageRevision :=
  (table.rows.find? fun record => record.row.IsAt revisionId workspaceId).map (·.row)

def ofWorkspace (workspaceId : String) : List RevisionRecord :=
  table.rows.filter fun record => record.row.workspaceId = workspaceId

def ready (workspaceId : String) : List RevisionRecord :=
  (table.ofWorkspace workspaceId).filter fun record => record.row.status = .ready

/-- `update_revision`. -/
def update (revision : RuntimeImageRevision) : RevisionTable where
  rows := table.rows.map (·.updated revision)
  primary := by
    rw [List.map_map]
    exact (List.map_congr_left fun record _ => updated_revisionId record revision) ▸ table.primary

/-- `delete_revision`. -/
def delete (revisionId workspaceId : String) : RevisionTable where
  rows := table.rows.filter fun record => ¬ record.row.IsAt revisionId workspaceId
  primary := table.primary.sublist (List.filter_sublist.map _)

end RevisionTable

/-- How the database lists the revisions of a workspace: newest first, and as it likes among equals. -/
structure RevisionOrder where
  list : RevisionTable → String → List RevisionRecord
  perm : ∀ table workspaceId, (list table workspaceId).Perm (table.ofWorkspace workspaceId)
  sorted : ∀ table workspaceId, (list table workspaceId).Pairwise fun a b => b.createdAt ≤ a.createdAt

theorem nodup_rows (table : RevisionTable) : table.rows.Nodup := table.primary.of_map _

theorem nodup_ready (table : RevisionTable) (workspaceId : String) : (table.ready workspaceId).Nodup :=
  ((nodup_rows table).filter _).filter _

theorem nodup_list (order : RevisionOrder) (table : RevisionTable) (workspaceId : String) :
    (order.list table workspaceId).Nodup :=
  (order.perm table workspaceId).nodup_iff.2 ((nodup_rows table).filter _)

theorem eq_of_revisionId {table : RevisionTable} {a b : RevisionRecord} (ha : a ∈ table.rows) (hb : b ∈ table.rows)
    (h : a.row.revisionId = b.row.revisionId) : a = b :=
  List.inj_on_of_nodup_map table.primary ha hb h

end Table

/-! ## A snapshot against the table -/

section Snapshot

structure SnapshotTables where
  table : RevisionTable
  marked : Option RevisionTable := none

/-- How an exchange changes the table; an UPDATE to READY also marks it. -/
def snapshotStep (g : SnapshotTables) : Event WorkspaceSig → SnapshotTables
  | ⟨.updateRevision revision, _, true, _⟩ =>
    { table := g.table.update revision
      marked := if revision.status = .ready then some (g.table.update revision) else g.marked }
  | ⟨.deleteRevision revisionId workspaceId, _, true, _⟩ => { g with table := g.table.delete revisionId workspaceId }
  | _ => g

/-- The table answers what is read of it; the listing and the deletes of a pruning do not fail. -/
def SnapshotAnswer (order : RevisionOrder) (g : SnapshotTables) : Event WorkspaceSig → Prop
  | ⟨.listRevisions workspaceId limit, out, _, _⟩ =>
    out = .ok (((order.list g.table workspaceId).take limit).map (·.row))
  | ⟨.deleteRevision _ _, .error _, _, _⟩ => False
  | ⟨.getRevision revisionId workspaceId, .ok found, _, _⟩ => found = g.table.get revisionId workspaceId
  | _ => True

def snapshotMonitor (order : RevisionOrder) : Monitor WorkspaceSig SnapshotTables where
  pre _ _ := True
  rely := SnapshotAnswer order
  step := snapshotStep

/-- The table after a run. -/
def SnapshotTables.after (g : SnapshotTables) (tr : List (Event WorkspaceSig)) : SnapshotTables :=
  tr.foldl snapshotStep g

/-- The READY revisions that were seen by a pruning, newest first. -/
def seenReady (order : RevisionOrder) (table : RevisionTable) (workspaceId : String) (limit : ℕ) :
    List RevisionRecord :=
  ((order.list table workspaceId).take limit).filter fun record => record.row.status = .ready

/-- What is promised of the table after a pruning: the newest READY revisions remain, and every other row does. -/
structure Retained (r : ℕ) (workspaceId : String) (before after : RevisionTable) : Prop where
  newest : Newest (·.createdAt) r (before.ready workspaceId) (after.ready workspaceId)
  others : ∀ record ∈ before.rows, record ∉ before.ready workspaceId → record ∈ after.rows

variable {ctx : WorkspaceContext} {order : RevisionOrder} {workspaceId : String}

/-- The rows that `_prune_revisions` leaves. -/
def Pruned (order : RevisionOrder) (r : ℕ) (workspaceId : String) (before after : RevisionTable) : Prop :=
  after.rows = prunedBy r (seenReady order before workspaceId (r + 20)) before.rows

theorem deleteEach_spec {before : RevisionTable} {marked : Option RevisionTable} :
    ∀ {stale : List RevisionRecord} {gone : List RevisionRecord} {table : RevisionTable},
    (∀ record ∈ stale, record ∈ before.rows ∧ record.row.workspaceId = workspaceId) →
    table.rows = before.rows.filter (fun record => record ∉ gone) →
    wpe (snapshotMonitor order) (deleteEach workspaceId (stale.map (·.row)))
      (fun _ g => g.marked = marked ∧ g.table.rows = before.rows.filter fun record => record ∉ gone ++ stale)
      (fun _ _ => False) ⟨table, marked⟩
  | [], gone, table, _, htable => by
    rw [List.append_nil]
    exact ⟨rfl, htable⟩
  | record :: stale, gone, table, hstale, htable => by
    rw [List.map_cons, deleteEach, wpe_bind, wpe_tryCatch, wpe_bind]
    refine wpe_ask.2 ⟨trivial, fun _ _ => ?_, fun _ _ _ h => h.elim⟩
    rw [wpe_pure]
    obtain ⟨hmem, hws⟩ := hstale record (List.mem_cons_self ..)
    have hnext : (table.delete record.row.revisionId workspaceId).rows =
        before.rows.filter fun other => other ∉ gone ++ [record] := by
      have hdelete : (table.delete record.row.revisionId workspaceId).rows =
          table.rows.filter fun other => ¬ other.row.IsAt record.row.revisionId workspaceId := rfl
      rw [hdelete, htable, List.filter_filter]
      refine List.filter_congr fun other hother => ?_
      have hat : other.row.IsAt record.row.revisionId workspaceId ↔ other = record := by
        constructor
        · intro hat
          exact eq_of_revisionId hother hmem hat.1
        · rintro rfl
          exact ⟨rfl, hws⟩
      simp only [hat, List.mem_append, List.mem_singleton, not_or, Bool.decide_and]
      exact Bool.and_comm _ _
    rw [List.append_cons]
    exact deleteEach_spec (fun other hother => hstale other (List.mem_cons_of_mem _ hother)) hnext

theorem filter_ready_map (rows : List RevisionRecord) :
    (rows.map (·.row)).filter (fun row => row.status = .ready) =
      (rows.filter fun record => record.row.status = .ready).map (·.row) := by
  rw [List.filter_map]
  rfl

/-- **The pruning** of the table that was marked. -/
theorem pruneRevisions_spec {table : RevisionTable} :
    wpe (snapshotMonitor order) (pruneRevisions ctx workspaceId)
      (fun _ g => g.marked = some table ∧ Pruned order ctx.snapshotRetention workspaceId table g.table)
      (fun _ _ => False) ⟨table, some table⟩ := by
  unfold pruneRevisions
  rw [wpe_bind, wpe_tryCatch]
  refine wpe_ask.2 ⟨trivial, fun existing hexisting => ?_, fun _ _ _ h => by cases h⟩
  cases hexisting
  rw [filter_ready_map, ← List.map_drop]
  have hseen : ∀ record ∈ (seenReady order table workspaceId (ctx.snapshotRetention + 20)).drop ctx.snapshotRetention,
      record ∈ table.rows ∧ record.row.workspaceId = workspaceId := by
    intro record hrec
    have hlisted := List.mem_of_mem_take (List.mem_filter.1 (List.mem_of_mem_drop hrec)).1
    obtain ⟨hrow, hws⟩ := List.mem_filter.1 ((order.perm table workspaceId).mem_iff.1 hlisted)
    exact ⟨hrow, of_decide_eq_true hws⟩
  have hall : table.rows = table.rows.filter fun record => record ∉ ([] : List RevisionRecord) := by simp
  exact deleteEach_spec hseen hall

def Settled (order : RevisionOrder) (r : ℕ) (workspaceId : String) (g : SnapshotTables) : Prop :=
  ∀ before, g.marked = some before → Pruned order r workspaceId before g.table

theorem settled_unmarked {r : ℕ} {g : SnapshotTables} (h : g.marked = none) : Settled order r workspaceId g := by
  intro before hbefore
  rw [h] at hbefore
  cases hbefore

theorem marked_updateRevision {g : SnapshotTables} {revision : RuntimeImageRevision} {out : Except WorkError Bool}
    {took : Bool} {hk : ∀ a, out = .ok a → took = true} (hm : g.marked = none) (hs : revision.status ≠ .ready) :
    (snapshotStep g ⟨.updateRevision revision, out, took, hk⟩).marked = none := by
  cases took with
  | false => exact hm
  | true => exact (if_neg hs).trans hm

theorem transition_status {revision next : RuntimeImageRevision} {target : ImageRevisionStatus}
    (h : revision.transition target = .ok next) : next.status = target := by
  unfold RuntimeImageRevision.transition at h
  split_ifs at h
  cases h
  rfl

theorem markFailed_status {revision failed : RuntimeImageRevision} {error : String}
    (h : revision.markFailed error = .ok failed) : failed.status = .failed := by
  unfold RuntimeImageRevision.markFailed at h
  by_cases hs : revision.status = .failed
  · rw [if_pos hs] at h
    cases h
    exact hs
  · rw [if_neg hs] at h
    rcases hnext : revision.transition .failed with e | next
    · rw [hnext] at h
      cases h
    · rw [hnext] at h
      cases h
      have hs : next.status = _ := transition_status hnext
      exact hs

theorem persistFailedRevision_spec {revision : RuntimeImageRevision} {error : String} {g : SnapshotTables}
    (hm : g.marked = none) :
    wpe (snapshotMonitor order) (persistFailedRevision revision error)
      (fun _ g => Settled order ctx.snapshotRetention workspaceId g) (fun _ _ => True) g := by
  unfold persistFailedRevision
  rw [wpe_bind]
  refine wpe_ofExcept (fun failed hfailed => ?_) fun _ _ => trivial
  have hs : failed.status ≠ .ready := by
    rw [markFailed_status hfailed]
    decide
  rw [wpe_bind]
  exact wpe_ask.2 ⟨trivial, fun _ _ => settled_unmarked (marked_updateRevision hm hs), fun _ _ _ _ => trivial⟩

theorem markReady_status {revision ready : RuntimeImageRevision} {now : ℤ} {snapshotRef : String}
    {metadata : List (String × String)} (h : revision.markReady now snapshotRef metadata = .ok ready) :
    ready.status = .ready := by
  unfold RuntimeImageRevision.markReady at h
  by_cases hs : snapshotRef = ""
  · rw [if_pos hs] at h
    cases h
  · rw [if_neg hs] at h
    rcases hnext : revision.transition .ready with e | next
    · rw [hnext] at h
      cases h
    · rw [hnext] at h
      cases h
      have hs : next.status = _ := transition_status hnext
      exact hs

/-- The provider is asked; nothing of the table changes. -/
theorem tryCreateSnapshot_spec {providerRef revisionId : String} {g : SnapshotTables} :
    wpe (snapshotMonitor order) (tryCreateSnapshot providerRef workspaceId revisionId) (fun _ g' => g' = g)
      (fun _ _ => True) g := by
  unfold tryCreateSnapshot catchProvider
  rw [wpe_tryCatch, wpe_bind]
  refine wpe_ask.2 ⟨trivial, fun _ _ => rfl, fun e _ _ _ => ?_⟩
  by_cases he : e.isProvider = true
  · rw [if_pos he]
    exact rfl
  · rw [if_neg he]
    trivial

theorem buildRevision_spec {revision : RuntimeImageRevision} {providerRef : String} {g : SnapshotTables}
    (hm : g.marked = none) :
    wpe (snapshotMonitor order) (buildRevision ctx revision workspaceId providerRef)
      (fun _ g => Settled order ctx.snapshotRetention workspaceId g) (fun _ _ => True) g := by
  unfold buildRevision
  rw [wpe_bind]
  refine wpe_ofExcept (fun building hbuilding => ?_) fun _ _ => trivial
  have hs : building.status ≠ .ready := by
    rw [transition_status hbuilding]
    decide
  rw [wpe_bind]
  refine wpe_ask.2 ⟨trivial, fun updated _ => ?_, fun _ _ _ _ => trivial⟩
  have hm : (snapshotStep g (.done (.updateRevision building) (.ok updated))).marked = none := marked_updateRevision hm hs
  rw [wpe_bind]
  refine wpe_mono tryCreateSnapshot_spec ?_ fun _ _ _ => trivial
  rintro (e | snapshotRef) g' rfl
  · exact persistFailedRevision_spec hm
  · dsimp only
    rw [wpe_bind]
    refine wpe_ask.2 ⟨trivial, fun now _ => ?_, fun _ _ _ _ => trivial⟩
    rw [wpe_bind]
    refine wpe_ofExcept (fun ready hready => ?_) fun _ _ => trivial
    rw [wpe_bind]
    refine wpe_ask.2 ⟨trivial, fun marked _ => ?_, fun _ _ _ _ => trivial⟩
    have hmarked : ∀ g', (snapshotMonitor order).step g' (.done (.updateRevision ready) (.ok marked)) =
        ⟨g'.table.update ready, some (g'.table.update ready)⟩ := fun g' =>
      congrArg (SnapshotTables.mk _) (if_pos (markReady_status hready))
    rw [hmarked]
    refine wpe_mono pruneRevisions_spec (fun _ g' hg' before hbefore => ?_) fun _ _ h => h.elim
    rw [hg'.1] at hbefore
    cases hbefore
    exact hg'.2

/-- **A snapshot**: once its revision is READY, the table that says so is pruned. -/
theorem handleSnapshot_spec {message : WorkspaceWorkMessage} {g : SnapshotTables} (hm : g.marked = none) :
    wpe (snapshotMonitor order) (handleSnapshot ctx message)
      (fun _ g => Settled order ctx.snapshotRetention message.workspaceId g) (fun _ _ => True) g := by
  unfold handleSnapshot
  rcases truthy message.revisionId with _ | revisionId
  · trivial
  rcases hws : truthy (some message.workspaceId) with _ | workspaceId
  · trivial
  obtain rfl : message.workspaceId = workspaceId := by
    have hfilter := Option.filter_eq_some_iff.1 hws
    exact Option.some.inj hfilter.1
  dsimp only
  rw [wpe_bind]
  refine wpe_ask.2 ⟨trivial, fun found _ => ?_, fun _ _ _ _ => trivial⟩
  rcases found with _ | revision
  · exact settled_unmarked hm
  dsimp only
  split_ifs
  · exact settled_unmarked hm
  unfold runSnapshot
  rw [wpe_bind]
  refine wpe_ask.2 ⟨trivial, fun runtime _ => ?_, fun _ _ _ _ => trivial⟩
  rcases runtime.bind servingHandle with _ | providerRef
  · exact persistFailedRevision_spec hm
  · exact buildRevision_spec hm

end Snapshot

/-! ## What is kept -/

section Retained

variable {order : RevisionOrder} {workspaceId : String} {before after : RevisionTable} {r : ℕ}

theorem mem_ready {table : RevisionTable} {record : RevisionRecord} : record ∈ table.ready workspaceId ↔
    record ∈ table.ofWorkspace workspaceId ∧ record.row.status = .ready := by
  rw [RevisionTable.ready, List.mem_filter, decide_eq_true_eq]

theorem mem_seenReady {limit : ℕ} {record : RevisionRecord} :
    record ∈ seenReady order before workspaceId limit ↔
      record ∈ (order.list before workspaceId).take limit ∧ record.row.status = .ready := by
  rw [seenReady, List.mem_filter, decide_eq_true_eq]

theorem seenReady_subset {limit : ℕ} : seenReady order before workspaceId limit ⊆ before.ready workspaceId := by
  intro record hrecord
  obtain ⟨hlisted, hs⟩ := mem_seenReady.1 hrecord
  exact mem_ready.2 ⟨(order.perm before workspaceId).mem_iff.1 (List.mem_of_mem_take hlisted), hs⟩

theorem ready_of_pruned (h : Pruned order r workspaceId before after) :
    after.ready workspaceId =
      prunedBy r (seenReady order before workspaceId (r + 20)) (before.ready workspaceId) := by
  unfold RevisionTable.ready RevisionTable.ofWorkspace
  rw [h, prunedBy, prunedBy, List.filter_filter, List.filter_filter, List.filter_filter, List.filter_filter]
  refine List.filter_congr fun record _ => ?_
  rw [Bool.and_right_comm]
  congr 1
  exact Bool.and_comm _ _

variable (order) in
theorem retained_of_pruned_iff (h : Pruned order r workspaceId before after) :
    Retained r workspaceId before after ↔ (before.ready workspaceId).length ≤ r ∨
      ∀ record ∈ before.ready workspaceId, record ∈ (order.list before workspaceId).take (r + 20) := by
  have hseen : (seenReady order before workspaceId (r + 20)).Nodup :=
    ((nodup_list order before workspaceId).sublist (List.take_sublist _ _)).filter _
  have hsorted : (seenReady order before workspaceId (r + 20)).Pairwise fun a b => b.createdAt ≤ a.createdAt :=
    ((order.sorted before workspaceId).sublist (List.take_sublist _ _)).filter _
  have hiff := newest_prunedBy_iff (r := r) (nodup_ready before workspaceId) hseen seenReady_subset hsorted
  rw [← ready_of_pruned h] at hiff
  have hothers : ∀ record ∈ before.rows, record ∉ before.ready workspaceId → record ∈ after.rows := by
    intro record hrecord hnot
    rw [h]
    refine List.mem_filter.2 ⟨hrecord, decide_eq_true fun hstale => hnot ?_⟩
    exact seenReady_subset (List.mem_of_mem_drop hstale)
  have hall : (∀ record ∈ before.ready workspaceId, record ∈ seenReady order before workspaceId (r + 20)) ↔
      ∀ record ∈ before.ready workspaceId, record ∈ (order.list before workspaceId).take (r + 20) :=
    forall₂_congr fun record hrecord => mem_seenReady.trans (and_iff_left (mem_ready.1 hrecord).2)
  rw [← hall, ← hiff]
  exact ⟨fun hretained => hretained.newest, fun hnewest => ⟨hnewest, hothers⟩⟩

/-- **The snapshots kept**: after a snapshot whose listing and deletes did not fail, the READY revisions that remain are
the newest of those there were when it was marked, and no other row is gone, exactly when there were at most
`snapshot_retention` of them or all were among the newest `snapshot_retention + 20` rows. -/
theorem retained_iff {ctx : WorkspaceContext} {message : WorkspaceWorkMessage} {table marked : RevisionTable}
    {tr : List (Event WorkspaceSig)} (hrun : Run (handleSnapshot ctx message).run tr (.ok ()))
    (hanswer : (snapshotMonitor order).Relied ⟨table, none⟩ tr)
    (hmarked : (SnapshotTables.after ⟨table, none⟩ tr).marked = some marked) :
    Retained ctx.snapshotRetention message.workspaceId marked (SnapshotTables.after ⟨table, none⟩ tr).table ↔
      (marked.ready message.workspaceId).length ≤ ctx.snapshotRetention ∨
        ∀ record ∈ marked.ready message.workspaceId,
          record ∈ (order.list marked message.workspaceId).take (ctx.snapshotRetention + 20) := by
  have hsettled := wp_run (handleSnapshot_spec rfl) hrun hanswer
  exact retained_of_pruned_iff order (hsettled marked hmarked)

end Retained

/-! ## A window full of failures -/

section Window

/-- The rows as they are inserted, among equals. -/
def newestFirst : RevisionOrder where
  list table workspaceId := (table.ofWorkspace workspaceId).insertionSort fun a b => b.createdAt ≤ a.createdAt
  perm table workspaceId := List.perm_insertionSort _ _
  sorted table workspaceId := by
    have : Std.Total fun a b : RevisionRecord => b.createdAt ≤ a.createdAt := ⟨fun a b => Int.le_total _ _⟩
    have : IsTrans RevisionRecord fun a b => b.createdAt ≤ a.createdAt := ⟨fun _ _ _ h h' => Int.le_trans h' h⟩
    exact List.pairwise_insertionSort _ _

def someRevision (createdAt : ℕ) (status : ImageRevisionStatus) : RevisionRecord where
  createdAt
  row := {
    revisionId := createdAt.repr
    workspaceId := "w-1"
    provider := "docker"
    configFingerprint := "fingerprint"
    baseImageRevision := "base"
    status }

/-- A READY revision, then `failures` that FAILED, then the one to build. -/
def revisionHistory (failures : ℕ) : List RevisionRecord :=
  someRevision 0 .ready :: (List.range failures).map (fun i => someRevision (i + 1) .failed) ++
    [someRevision (failures + 1) .pending]

/-- One failed attempt between two snapshots. -/
def fewFailures : RevisionTable := ⟨revisionHistory 1, by decide +kernel⟩

/-- Twenty failed attempts between two snapshots. -/
def manyFailures : RevisionTable := ⟨revisionHistory 20, by decide +kernel⟩

def keepsOne : WorkspaceContext := { smallContext with snapshotRetention := 1 }

/-- The table answers, the runtime serves and the provider takes the snapshot. -/
def snapshotReply (g : SnapshotTables) : (op : WorkspaceOp) → Except WorkError op.Ans
  | .now => .ok 0
  | .getRuntime _ => .ok (some servingRuntime)
  | .getRevision revisionId workspaceId => .ok (g.table.get revisionId workspaceId)
  | .listRevisions workspaceId limit => .ok (((newestFirst.list g.table workspaceId).take limit).map (·.row))
  | .updateRevision revision => .ok (g.table.get revision.revisionId revision.workspaceId).isSome
  | .deleteRevision revisionId workspaceId => .ok (g.table.get revisionId workspaceId).isSome
  | .provider (.createSnapshot _ _ revisionId) => .ok revisionId
  | _ => .error { name := "NotImplementedError", message := "not asked by a snapshot" }

def snapshotEnv : Env WorkspaceSig SnapshotTables where
  reply := snapshotReply
  effect := snapshotStep

theorem answer_snapshotReply (g : SnapshotTables) (op : WorkspaceOp) :
    SnapshotAnswer newestFirst g (.answered op (snapshotReply g op)) := by
  cases op with
  | getRevision _ _ => exact rfl
  | listRevisions _ _ => exact rfl
  | deleteRevision _ _ => trivial
  | provider op =>
    rcases snapshotReply g (.provider op) with e | a
    · trivial
    · trivial
  | _ => trivial

def snapshotRun (revisionId : String) (table : RevisionTable) : List (Event WorkspaceSig) × Except WorkError Unit :=
  (handleSnapshot keepsOne ⟨workKindSnapshot, "w-1", none, some revisionId⟩).run.play snapshotEnv ⟨table, none⟩

theorem answered_snapshotRun (revisionId : String) (table : RevisionTable) :
    (snapshotMonitor newestFirst).Relied ⟨table, none⟩ (snapshotRun revisionId table).1 :=
  relied_play rfl answer_snapshotReply _ _

theorem retained_fewFailures : ∃ marked,
    Retained 1 "w-1" marked (SnapshotTables.after ⟨fewFailures, none⟩ (snapshotRun "2" fewFailures).1).table ∧
      (marked.ready "w-1").length = 2 := by
  have hrun := run_play snapshotEnv (handleSnapshot keepsOne ⟨workKindSnapshot, "w-1", none, some "2"⟩).run
    ⟨fewFailures, none⟩
  have hready : (SnapshotTables.after ⟨fewFailures, none⟩ (snapshotRun "2" fewFailures).1).marked.map
      (fun marked => ((marked.ready "w-1").length, decide (∀ record ∈ marked.ready "w-1",
        record ∈ (newestFirst.list marked "w-1").take 21))) = some (2, true) := by decide +kernel
  obtain ⟨marked, hmarked, hcount⟩ := Option.map_eq_some_iff.1 hready
  obtain ⟨hcount, hread⟩ := Prod.mk.inj hcount
  exact ⟨marked, (retained_iff hrun (answered_snapshotRun _ _) hmarked).2
    (.inr (of_decide_eq_true hread)), hcount⟩

/-- Behind twenty FAILED revisions the old READY one is not read: two remain where one is to be kept. -/
theorem ready_hidden_by_failures : ¬ ∀ (ctx : WorkspaceContext) (order : RevisionOrder) (message : WorkspaceWorkMessage)
    (table marked : RevisionTable) (tr : List (Event WorkspaceSig)), 1 ≤ ctx.snapshotRetention →
      Run (handleSnapshot ctx message).run tr (.ok ()) → (snapshotMonitor order).Relied ⟨table, none⟩ tr →
      (SnapshotTables.after ⟨table, none⟩ tr).marked = some marked →
      Retained ctx.snapshotRetention message.workspaceId marked (SnapshotTables.after ⟨table, none⟩ tr).table := by
  intro h
  have hready : (SnapshotTables.after ⟨manyFailures, none⟩ (snapshotRun "21" manyFailures).1).marked.map
      (fun marked => (marked.ready "w-1").length) = some 2 := by decide +kernel
  obtain ⟨marked, hmarked, hcount⟩ := Option.map_eq_some_iff.1 hready
  have hretained := h keepsOne newestFirst ⟨workKindSnapshot, "w-1", none, some "21"⟩ manyFailures marked _ le_rfl
    (run_play snapshotEnv _ ⟨manyFailures, none⟩) (answered_snapshotRun _ _) hmarked
  have hkept := hretained.newest.count
  rw [hcount] at hkept
  have hleft : ((SnapshotTables.after ⟨manyFailures, none⟩ (snapshotRun "21" manyFailures).1).table.ready "w-1").length =
      2 := by decide +kernel
  exact absurd (hleft.symm.trans hkept) (by decide)

end Window

end Transform.Workspaces
