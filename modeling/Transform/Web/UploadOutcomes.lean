import Mathlib.Data.List.Nodup
import Mathlib.Tactic.SplitIfs
import Transform.Web.UploadRows

/-!
# Web.UploadOutcomes — rows that keep their outcome

A dismissed row never comes back and no row has two runs.  But the `then` of a run asks nobody whether its row was canceled
while the server verified, and the effects of a render start what was queued when it was rendered.

* `UploadsStore.Inv`: what the refs and the runs that go on mean for the rows; every step keeps it (`inv_rowStep`).
* `rows_settle_iff`: rows keep their outcome exactly in the runs of which every step is orderly.
-/

namespace Transform.Web

open Lib

/-! ## What every step keeps -/

section Steps

variable {s s' : UploadsStore} {id : String} {update : UiUpload → UiUpload} {uploads : List UiUpload} {number : ℕ}
  {run : EngineRun}

/-- What a run that goes on means for its row. -/
structure UploadsStore.Fits (s : UploadsStore) (number : ℕ) (run : EngineRun) (row : UiUpload) : Prop where
  live : run.aborted = false →
    s.controllers run.id = some number ∧ s.files run.id = true ∧ isUploadActive row.status = true
  stopped : run.aborted = true → s.files run.id = false ∧ (row.status = .canceled ∨ row.status = .failed)

structure UploadsStore.Inv (s : UploadsStore) : Prop where
  nodup : (s.uploads.map (·.id)).Nodup
  rows : ∀ row ∈ s.uploads, row.id ∈ s.known
  numbered : ∀ number, s.nextRun ≤ number → s.runs number = none
  named : ∀ number run, s.runs number = some run → run.id ∈ s.known
  controlled : ∀ id number, s.controllers id = some number → ∃ run, s.runs number = some run ∧ run.id = id
  running : ∀ id, s.running id = true ↔ ∃ number run, s.runs number = some run ∧ run.Unfinished ∧ run.id = id
  one : OneRun s
  rendered : ∀ uploads, s.rendered = some uploads → (uploads.map (·.id)).Nodup ∧ ∀ row ∈ uploads, row.id ∈ s.known
  fits : s.mounted = true → ∀ number run, s.runs number = some run → run.Going → ∀ row ∈ s.uploads, row.id = run.id →
    s.Fits number run row

theorem mem_patchRows {row : UiUpload} : row ∈ patchRows id update uploads ↔
    ∃ old ∈ uploads, (if old.id = id then update old else old) = row := List.mem_map

theorem ids_patchRows (h : ∀ row, (update row).id = row.id) :
    (patchRows id update uploads).map (·.id) = uploads.map (·.id) := by
  unfold patchRows
  rw [List.map_map]
  refine List.map_congr_left ?_
  intro row _
  show (if row.id = id then update row else row).id = row.id
  split_ifs
  · exact h row
  · rfl

theorem of_mem_patchRows (h : ∀ row, (update row).id = row.id) {row : UiUpload} (hrow : row ∈ patchRows id update uploads) :
    ∃ old ∈ uploads, old.id = row.id ∧ (row.id = id → row = update old) ∧ (row.id ≠ id → row = old) := by
  obtain ⟨old, hold, heq⟩ := mem_patchRows.mp hrow
  split_ifs at heq with hid
  · subst heq
    exact ⟨old, hold, (h old).symm, fun _ => rfl, fun hne => absurd ((h old).trans hid) hne⟩
  · subst heq
    exact ⟨old, hold, rfl, fun heq => absurd heq hid, fun _ => rfl⟩

theorem EngineRun.Going.unfinished (h : run.Going) : run.Unfinished := h.2

theorem unfinished_of_phase {phase : RunPhase} (h : run.phase = phase) (hphase : phase ≠ .finished) : run.Unfinished := by
  rw [← h] at hphase
  exact hphase

theorem going_of_phase {phase : RunPhase} (h : run.phase = phase) (hsettled : phase ≠ .settled)
    (hfinished : phase ≠ .finished) : run.Going := by
  rw [EngineRun.Going, h]
  exact ⟨hsettled, hfinished⟩

theorem runs_setRun {other : ℕ} : (s.setRun number run).runs other = if other = number then some run else s.runs other :=
  Function.update_apply ..

theorem UploadsStore.Inv.patch (h : s.Inv) (hid : ∀ row, (update row).id = row.id)
    (hfits : s.mounted = true → ∀ number run, s.runs number = some run → run.Going → run.id = id → ∀ row ∈ s.uploads,
      row.id = id → s.Fits number run row → s.Fits number run (update row)) : (s.patch id update).Inv := by
  unfold UploadsStore.patch UploadsStore.setUploads
  split_ifs with hmounted
  · refine ⟨?_, ?_, h.numbered, h.named, h.controlled, h.running, h.one, h.rendered, ?_⟩
    · show ((patchRows id update s.uploads).map (·.id)).Nodup
      rw [ids_patchRows hid]
      exact h.nodup
    · intro row hrow
      obtain ⟨old, hold, heq, -, -⟩ := of_mem_patchRows hid hrow
      have hknown := h.rows old hold
      rwa [heq] at hknown
    · intro _ number run hrun hgoing row hrow hof
      obtain ⟨old, hold, heq, hsame, hother⟩ := of_mem_patchRows hid hrow
      have hfit := h.fits hmounted number run hrun hgoing old hold (heq.trans hof)
      by_cases hrowid : row.id = id
      · rw [hsame hrowid]
        have hnew := hfits hmounted number run hrun hgoing (hof.symm.trans hrowid) old hold (heq.trans hrowid) hfit
        exact ⟨hnew.live, hnew.stopped⟩
      · rw [hother hrowid]
        exact ⟨hfit.live, hfit.stopped⟩
  · exact h

theorem UploadsStore.Inv.setPhase (h : s.Inv) (hrun : s.runs number = some run) (phase : RunPhase)
    (hunfinished : run.Unfinished) (hphase : phase ≠ .finished)
    (hgoing : EngineRun.Going { run with phase } → run.Going) : (s.setRun number { run with phase }).Inv := by
  have hback : ∀ other run', (s.setRun number { run with phase }).runs other = some run' → ∃ old, s.runs other = some old ∧
      old.id = run'.id ∧ old.aborted = run'.aborted ∧ (run'.Going → old.Going) ∧ (old.Unfinished ↔ run'.Unfinished) := by
    intro other run' hother
    rw [runs_setRun] at hother
    split_ifs at hother with heq
    · cases hother
      rw [heq]
      exact ⟨run, hrun, rfl, rfl, hgoing, fun _ => hphase, fun _ => hunfinished⟩
    · exact ⟨run', hother, rfl, rfl, id, Iff.rfl⟩
  have hforth : ∀ other old, s.runs other = some old → ∃ run', (s.setRun number { run with phase }).runs other = some run' ∧
      old.id = run'.id ∧ (old.Unfinished → run'.Unfinished) := by
    intro other old hother
    rw [runs_setRun]
    split_ifs with heq
    · rw [heq, hrun] at hother
      cases hother
      exact ⟨_, rfl, rfl, fun _ => hphase⟩
    · exact ⟨old, hother, rfl, id⟩
  refine ⟨h.nodup, h.rows, ?_, ?_, ?_, ?_, ?_, h.rendered, ?_⟩
  · intro other hother
    rw [runs_setRun, if_neg]
    · exact h.numbered other hother
    · rintro rfl
      rw [h.numbered other hother] at hrun
      cases hrun
  · intro other run' hother
    obtain ⟨old, hold, heq, -⟩ := hback other run' hother
    rw [← heq]
    exact h.named other old hold
  · intro name other hcontrol
    obtain ⟨old, hold, hname⟩ := h.controlled name other hcontrol
    obtain ⟨run', hrun', heq, -⟩ := hforth other old hold
    exact ⟨run', hrun', heq.symm.trans hname⟩
  · intro name
    rw [show (s.setRun number { run with phase }).running = s.running from rfl, h.running name]
    constructor
    · rintro ⟨other, old, hold, hopen, hname⟩
      obtain ⟨run', hrun', heq, hun⟩ := hforth other old hold
      exact ⟨other, run', hrun', hun hopen, heq.symm.trans hname⟩
    · rintro ⟨other, run', hrun', hopen, hname⟩
      obtain ⟨old, hold, heq, -, -, hun⟩ := hback other run' hrun'
      exact ⟨other, old, hold, hun.mpr hopen, heq.trans hname⟩
  · intro i x j y hx hy hxopen hyopen hxy
    obtain ⟨x', hx', hxid, -, -, hxun⟩ := hback i x hx
    obtain ⟨y', hy', hyid, -, -, hyun⟩ := hback j y hy
    exact h.one i x' j y' hx' hy' (hxun.mpr hxopen) (hyun.mpr hyopen) (by rw [hxid, hyid, hxy])
  · intro hmounted other run' hother hgo row hrow hof
    obtain ⟨old, hold, heq, habort, hold', -⟩ := hback other run' hother
    have hfit := h.fits hmounted other old hold (hold' hgo) row hrow (hof.trans heq.symm)
    refine ⟨?_, ?_⟩
    · intro hlive
      have hfit' := hfit.live (habort.trans hlive)
      rwa [heq] at hfit'
    · intro hstopped
      have hfit' := hfit.stopped (habort.trans hstopped)
      rwa [heq] at hfit'

theorem inv_startRow (h : s.Inv) (hmounted : s.mounted = true) (hid : id ∈ s.known) : (s.start id).Inv := by
  unfold UploadsStore.start
  split_ifs with hfile hrunning
  · refine h.patch (fun _ => rfl) ?_
    intro _ number run _ _ hof row _ _ hfit
    refine ⟨?_, ?_⟩
    · intro hlive
      have hfiles := (hfit.live hlive).2.1
      rw [hof, hfile] at hfiles
      cases hfiles
    · intro hstopped
      exact ⟨(hfit.stopped hstopped).1, Or.inr rfl⟩
  · exact h
  · -- no run of the row is unfinished, and the new one is the first
    have hnone : ∀ number run, s.runs number = some run → run.Unfinished → run.id ≠ id := by
      intro number run hrun hopen hof
      exact hrunning ((h.running id).mpr ⟨number, run, hrun, hopen, hof⟩)
    have hpatched : (s.patch id uploadingRow).Inv := by
      refine h.patch (fun _ => rfl) ?_
      intro _ number run hrun hgoing hof
      exact absurd hof (hnone number run hrun hgoing.unfinished)
    have hnew : s.runs s.nextRun = none := h.numbered s.nextRun (Nat.le_refl _)
    obtain ⟨uploads, huploads⟩ : ∃ uploads, patchRows id uploadingRow s.uploads = uploads := ⟨_, rfl⟩
    unfold UploadsStore.patch UploadsStore.setUploads at hpatched ⊢
    rw [if_pos hmounted, huploads] at hpatched ⊢
    have hruns : ∀ number run, Function.update s.runs s.nextRun (some { id }) number = some run →
        (number = s.nextRun ∧ run = { id }) ∨ number ≠ s.nextRun ∧ s.runs number = some run := by
      intro number run hrun
      rw [Function.update_apply] at hrun
      split_ifs at hrun with hnumber
      · cases hrun
        exact Or.inl ⟨hnumber, rfl⟩
      · exact Or.inr ⟨hnumber, hrun⟩
    have hold : ∀ number run, s.runs number = some run →
        Function.update s.runs s.nextRun (some { id }) number = some run := by
      intro number run hrun
      rw [Function.update_of_ne]
      · exact hrun
      · rintro rfl
        rw [hnew] at hrun
        cases hrun
    refine ⟨hpatched.nodup, hpatched.rows, ?_, ?_, ?_, ?_, ?_, h.rendered, ?_⟩
    · intro number hnumber
      show Function.update s.runs s.nextRun (some { id }) number = none
      have hlate : s.nextRun + 1 ≤ number := hnumber
      rw [Function.update_of_ne (by omega)]
      exact h.numbered number (by omega)
    · intro number run hrun
      rcases hruns number run hrun with ⟨-, rfl⟩ | ⟨-, hrun⟩
      · exact hid
      · exact h.named number run hrun
    · intro name number hcontrol
      have hcontrol : Function.update s.controllers id (some s.nextRun) name = some number := hcontrol
      rw [Function.update_apply] at hcontrol
      split_ifs at hcontrol with hname
      · cases hcontrol
        exact ⟨{ id }, Function.update_self .., hname.symm⟩
      · obtain ⟨run, hrun, hof⟩ := h.controlled name number hcontrol
        exact ⟨run, hold number run hrun, hof⟩
    · intro name
      show Function.update s.running id true name = true ↔ _
      rw [Function.update_apply]
      split_ifs with hname
      · exact ⟨fun _ => ⟨s.nextRun, { id }, Function.update_self .., nofun, hname.symm⟩, fun _ => rfl⟩
      · rw [h.running name]
        constructor
        · rintro ⟨number, run, hrun, hopen, hof⟩
          exact ⟨number, run, hold number run hrun, hopen, hof⟩
        · rintro ⟨number, run, hrun, hopen, hof⟩
          rcases hruns number run hrun with ⟨-, rfl⟩ | ⟨-, hrun⟩
          · exact absurd hof.symm hname
          · exact ⟨number, run, hrun, hopen, hof⟩
    · intro i x j y hx hy hxopen hyopen hxy
      rcases hruns i x hx with ⟨hi, rfl⟩ | ⟨-, hx⟩
      · rcases hruns j y hy with ⟨hj, -⟩ | ⟨-, hy⟩
        · rw [hi, hj]
        · exact absurd hxy.symm (hnone j y hy hyopen)
      · rcases hruns j y hy with ⟨-, rfl⟩ | ⟨-, hy⟩
        · exact absurd hxy (hnone i x hx hxopen)
        · exact h.one i x j y hx hy hxopen hyopen hxy
    · intro _ number run hrun hgoing row hrow hof
      rcases hruns number run hrun with ⟨hnumber, rfl⟩ | ⟨-, hrun⟩
      · refine ⟨?_, fun hstopped => by cases hstopped⟩
        intro _
        refine ⟨?_, ?_, ?_⟩
        · show Function.update s.controllers id (some s.nextRun) id = some number
          rw [Function.update_self, hnumber]
        · rw [Bool.not_eq_false] at hfile
          exact hfile
        · have hrow : row ∈ uploads := hrow
          rw [← huploads] at hrow
          have hids : ∀ row, (uploadingRow row).id = row.id := fun _ => rfl
          obtain ⟨old, -, -, hsame, -⟩ := of_mem_patchRows hids hrow
          rw [hsame hof]
          rfl
      · have hfit := hpatched.fits hmounted number run hrun hgoing row hrow hof
        have hother := hnone number run hrun hgoing.unfinished
        refine ⟨?_, hfit.stopped⟩
        intro hlive
        obtain ⟨hcontrol, hrest⟩ := hfit.live hlive
        refine ⟨?_, hrest⟩
        show Function.update s.controllers id (some s.nextRun) run.id = some number
        rw [Function.update_of_ne hother]
        exact hcontrol

@[simp] theorem mounted_patch : (s.patch id update).mounted = s.mounted := by
  unfold UploadsStore.patch UploadsStore.setUploads
  split_ifs <;> rfl

@[simp] theorem known_patch : (s.patch id update).known = s.known := by
  unfold UploadsStore.patch UploadsStore.setUploads
  split_ifs <;> rfl

theorem mounted_start : (s.start id).mounted = s.mounted := by
  unfold UploadsStore.start
  split_ifs <;> simp

theorem known_start : (s.start id).known = s.known := by
  unfold UploadsStore.start
  split_ifs <;> simp

theorem sublist_pickQueued {running : String → Bool} {capacity : ℕ} :
    (pickQueued running capacity uploads).Sublist (uploads.map (·.id)) := by
  fun_induction pickQueued running capacity uploads with
  | case1 | case2 => exact List.nil_sublist _
  | case3 capacity row rest hskip ih => exact ih.cons _
  | case4 capacity row rest hskip ih => exact ih.cons_cons _

theorem idle_of_mem_pickQueued {running : String → Bool} {capacity : ℕ} (h : id ∈ pickQueued running capacity uploads) :
    running id = false := by
  fun_induction pickQueued running capacity uploads with
  | case1 => cases h
  | case2 => cases h
  | case3 capacity row rest hskip ih => exact ih h
  | case4 capacity row rest hskip ih =>
    rcases List.mem_cons.mp h with rfl | h
    · by_contra hrunning
      exact hskip (by simp [hrunning])
    · exact ih h

theorem of_mem_picks (h : id ∈ s.picks uploads) : (∃ row ∈ uploads, row.id = id) ∧ s.running id = false := by
  refine ⟨?_, idle_of_mem_pickQueued h⟩
  have hlisted := sublist_pickQueued.subset h
  rw [List.map_reverse, List.mem_reverse] at hlisted
  exact List.mem_map.mp hlisted

theorem nodup_picks (h : (uploads.map (·.id)).Nodup) : (s.picks uploads).Nodup := by
  refine sublist_pickQueued.nodup ?_
  rw [List.map_reverse]
  exact List.nodup_reverse.mpr h

theorem inv_startRows {ids : List String} (h : s.Inv) (hmounted : s.mounted = true) (hids : ∀ id ∈ ids, id ∈ s.known) :
    (ids.foldl UploadsStore.start s).Inv := by
  induction ids generalizing s with
  | nil => exact h
  | cons id ids ih =>
    refine ih (inv_startRow h hmounted (hids id List.mem_cons_self)) (mounted_start.trans hmounted) ?_
    intro id' hid'
    rw [known_start]
    exact hids id' (List.mem_cons_of_mem _ hid')

theorem inv_render (h : s.Inv) : UploadsStore.Inv { s with rendered := some s.uploads } :=
  ⟨h.nodup, h.rows, h.numbered, h.named, h.controlled, h.running, h.one,
    fun _ huploads => Option.some.inj huploads ▸ ⟨h.nodup, h.rows⟩, fun hm n r hr hg row hrow hof =>
      ⟨(h.fits hm n r hr hg row hrow hof).live, (h.fits hm n r hr hg row hrow hof).stopped⟩⟩

theorem inv_effects (h : s.Inv) (hmounted : s.mounted = true) (hrendered : s.rendered = some uploads) :
    (s.effects uploads).Inv := by
  have hstart : UploadsStore.Inv { s with uploadsRef := uploads, rendered := none } :=
    ⟨h.nodup, h.rows, h.numbered, h.named, h.controlled, h.running, h.one, nofun, fun hm n r hr hg row hrow hof =>
      ⟨(h.fits hm n r hr hg row hrow hof).live, (h.fits hm n r hr hg row hrow hof).stopped⟩⟩
  refine inv_startRows hstart hmounted ?_
  intro id hid
  obtain ⟨row, hrow, rfl⟩ := (of_mem_picks hid).1
  exact (h.rendered uploads hrendered).2 row hrow

theorem inv_of_same (h : s.Inv)
    (hruns : ∀ number, (s'.runs number).map (fun run => (run.id, run.phase)) =
      (s.runs number).map fun run => (run.id, run.phase))
    (hrendered : s'.rendered = s.rendered) (hnext : s'.nextRun = s.nextRun) (hrunning : s'.running = s.running) (hknown : ∀ id ∈ s.known, id ∈ s'.known)
    (hcontrol : ∀ id number, s'.controllers id = some number → s.controllers id = some number)
    (hnodup : (s'.uploads.map (·.id)).Nodup) (hrows : ∀ row ∈ s'.uploads, row.id ∈ s'.known)
    (hfits : s'.mounted = true → ∀ number run, s'.runs number = some run → run.Going → ∀ row ∈ s'.uploads,
      row.id = run.id → s'.Fits number run row) : s'.Inv := by
  have hback : ∀ number run, s'.runs number = some run → ∃ old, s.runs number = some old ∧ old.id = run.id ∧
      old.phase = run.phase := by
    intro number run hrun
    have hsame := hruns number
    rw [hrun, Option.map_some] at hsame
    obtain ⟨old, hold, heq⟩ := Option.map_eq_some_iff.mp hsame.symm
    exact ⟨old, hold, congrArg Prod.fst heq, congrArg Prod.snd heq⟩
  have hforth : ∀ number old, s.runs number = some old → ∃ run, s'.runs number = some run ∧ old.id = run.id ∧
      old.phase = run.phase := by
    intro number old hold
    have hsame := hruns number
    rw [hold, Option.map_some] at hsame
    obtain ⟨run, hrun, heq⟩ := Option.map_eq_some_iff.mp hsame
    exact ⟨run, hrun, (congrArg Prod.fst heq).symm, (congrArg Prod.snd heq).symm⟩
  refine ⟨hnodup, hrows, ?_, ?_, ?_, ?_, ?_, ?_, hfits⟩
  · intro number hnumber
    have hnone := h.numbered number (hnext ▸ hnumber)
    have hsame := hruns number
    rw [hnone, Option.map_none, Option.map_eq_none_iff] at hsame
    exact hsame
  · intro number run hrun
    obtain ⟨old, hold, hid, -⟩ := hback number run hrun
    rw [← hid]
    exact hknown _ (h.named number old hold)
  · intro id number hnumber
    obtain ⟨old, hold, hof⟩ := h.controlled id number (hcontrol id number hnumber)
    obtain ⟨run, hrun, hid, -⟩ := hforth number old hold
    exact ⟨run, hrun, hid.symm.trans hof⟩
  · intro id
    rw [hrunning, h.running id]
    constructor
    · rintro ⟨number, old, hold, hopen, hof⟩
      obtain ⟨run, hrun, hid, hphase⟩ := hforth number old hold
      exact ⟨number, run, hrun, fun hfinished => hopen (hphase.trans hfinished), hid.symm.trans hof⟩
    · rintro ⟨number, run, hrun, hopen, hof⟩
      obtain ⟨old, hold, hid, hphase⟩ := hback number run hrun
      exact ⟨number, old, hold, fun hfinished => hopen (hphase.symm.trans hfinished), hid.trans hof⟩
  · intro i x j y hx hy hxopen hyopen hxy
    obtain ⟨x', hx', hxid, hxphase⟩ := hback i x hx
    obtain ⟨y', hy', hyid, hyphase⟩ := hback j y hy
    exact h.one i x' j y' hx' hy' (fun hfinished => hxopen (hxphase.symm.trans hfinished))
      (fun hfinished => hyopen (hyphase.symm.trans hfinished)) (by rw [hxid, hyid, hxy])
  · intro uploads huploads
    obtain ⟨hids, hof⟩ := h.rendered uploads (hrendered ▸ huploads)
    exact ⟨hids, fun row hrow => hknown _ (hof row hrow)⟩

theorem map_abort (controller : Option ℕ) (number : ℕ) : (s.abort controller number).map (fun run => (run.id, run.phase)) =
    (s.runs number).map fun run => (run.id, run.phase) := by
  unfold UploadsStore.abort
  split_ifs
  · rw [Option.map_map]
    rfl
  · rfl

theorem of_abort {controller : Option ℕ} (h : s.abort controller number = some run) :
    (controller = some number ∧ run.aborted = true) ∨ controller ≠ some number ∧ s.runs number = some run := by
  unfold UploadsStore.abort at h
  split_ifs at h with hcontroller
  · obtain ⟨old, -, rfl⟩ := Option.map_eq_some_iff.mp h
    exact Or.inl ⟨hcontroller, rfl⟩
  · exact Or.inr ⟨hcontroller, h⟩

theorem UploadsStore.Inv.of_abort_other (h : s.Inv) (hrun : s.abort (s.controllers id) number = some run)
    (hne : run.id ≠ id) : s.runs number = some run := by
  rcases of_abort hrun with ⟨hcontroller, -⟩ | ⟨-, hrun⟩
  · obtain ⟨old, hold, hname⟩ := h.controlled id number hcontroller
    have hsame := map_abort (s := s) (s.controllers id) number
    rw [hrun, hold, Option.map_some, Option.map_some] at hsame
    have hid : run.id = old.id := congrArg Prod.fst (Option.some.inj hsame)
    exact absurd (hid.trans hname) hne
  · exact hrun

theorem inv_cancel (h : s.Inv) : (s.cancel id).Inv := by
  have hids : ∀ row, (canceledRow row).id = row.id := fun _ => rfl
  refine inv_of_same h (map_abort _) rfl rfl rfl (fun _ hid => hid) (fun _ _ hnumber => hnumber) ?_ ?_ ?_
  · show ((patchRows id canceledRow s.uploads).map (·.id)).Nodup
    rw [ids_patchRows hids]
    exact h.nodup
  · intro row hrow
    obtain ⟨old, hold, heq, -, -⟩ := of_mem_patchRows hids hrow
    have hknown := h.rows old hold
    rwa [heq] at hknown
  · intro hmounted number run hrun hgoing row hrow hof
    obtain ⟨old, hold, heq, hsame, hother⟩ := of_mem_patchRows hids hrow
    by_cases hrowid : row.id = id
    · -- the run of the row is the one of the controller, or was aborted before
      have hstop : run.aborted = true ∧ row.status = .canceled := by
        refine ⟨?_, by rw [hsame hrowid]; rfl⟩
        rcases of_abort hrun with ⟨-, haborted⟩ | ⟨hcontroller, hrun⟩
        · exact haborted
        · by_contra hlive
          rw [Bool.not_eq_true] at hlive
          have hfit := h.fits hmounted number run hrun hgoing old hold (heq.trans hof)
          refine hcontroller ?_
          rw [← hrowid, hof]
          exact (hfit.live hlive).1
      refine ⟨fun hlive => ?_, fun _ => ⟨?_, Or.inl hstop.2⟩⟩
      · rw [hstop.1] at hlive
        cases hlive
      · show Function.update s.files id false run.id = false
        rw [← hof, hrowid, Function.update_self]
    · have hruns : s.runs number = some run := h.of_abort_other hrun fun heq => hrowid (hof.trans heq)
      have hfit := h.fits hmounted number run hruns hgoing old hold (heq.trans hof)
      rw [hother hrowid]
      have hfiles : (s.cancel id).files run.id = s.files run.id := by
        show Function.update s.files id false run.id = s.files run.id
        rw [Function.update_of_ne (fun heq => hrowid (hof.trans heq))]
      refine ⟨?_, ?_⟩
      · intro hlive
        rw [hfiles]
        exact hfit.live hlive
      · intro hstopped
        rw [hfiles]
        exact hfit.stopped hstopped

theorem inv_dismiss (h : s.Inv) : (s.dismiss id).Inv := by
  refine inv_of_same h (map_abort _) rfl rfl rfl (fun _ hid => hid) ?_ ?_ ?_ ?_
  · intro name number hnumber
    have hnumber : Function.update s.controllers id none name = some number := hnumber
    rw [Function.update_apply] at hnumber
    split_ifs at hnumber
    exact hnumber
  · exact h.nodup.sublist (List.filter_sublist.map _)
  · intro row hrow
    exact h.rows row (List.mem_filter.mp hrow).1
  · intro hmounted number run hrun hgoing row hrow hof
    obtain ⟨hold, hrowid⟩ := List.mem_filter.mp hrow
    have hne : run.id ≠ id := by
      rw [← hof]
      exact of_decide_eq_true hrowid
    have hfit := h.fits hmounted number run (h.of_abort_other hrun hne) hgoing row hold hof
    have hfiles : (s.dismiss id).files run.id = s.files run.id := Function.update_of_ne hne ..
    refine ⟨?_, ?_⟩
    · intro hlive
      have hcontrol : (s.dismiss id).controllers run.id = s.controllers run.id := Function.update_of_ne hne ..
      rw [hfiles, hcontrol]
      exact hfit.live hlive
    · intro hstopped
      rw [hfiles]
      exact hfit.stopped hstopped

theorem inv_retry (h : s.Inv) : (s.retry id).Inv := by
  unfold UploadsStore.retry
  split_ifs with hfile
  · refine h.patch (fun _ => rfl) ?_
    intro _ number run _ _ hof row _ _ hfit
    refine ⟨?_, fun hstopped => ⟨(hfit.stopped hstopped).1, Or.inr rfl⟩⟩
    intro hlive
    have hfiles := (hfit.live hlive).2.1
    rw [hof, hfile] at hfiles
    cases hfiles
  · show (s.patch id requeued).Inv
    refine h.patch (fun _ => rfl) ?_
    intro _ number run _ _ hof row _ _ hfit
    refine ⟨fun hlive => ⟨(hfit.live hlive).1, (hfit.live hlive).2.1, rfl⟩, ?_⟩
    intro hstopped
    have hfiles := (hfit.stopped hstopped).1
    rw [hof] at hfiles
    exact absurd hfiles hfile

theorem inv_unmount (h : s.Inv) : s.unmount.Inv := by
  refine inv_of_same h ?_ rfl rfl rfl (fun _ hid => hid) (fun _ _ hnone => by cases hnone) h.nodup h.rows
    (fun hmounted => by cases hmounted)
  intro number
  show ((s.runs number).map _).map _ = _
  rw [Option.map_map]
  refine Option.map_congr ?_
  intro run _
  show (EngineRun.id (if _ then _ else _), EngineRun.phase (if _ then _ else _)) = _
  split_ifs <;> rfl

theorem inv_addFiles {picked : List PickedFile} {folderId : Option String} {createdAt : String} (h : s.Inv)
    (hnodup : (picked.map (·.id)).Nodup) (hnew : ∀ file ∈ picked, file.id ∉ s.known) :
    (s.addFiles picked folderId createdAt).Inv := by
  have hmem : ∀ row ∈ (s.addFiles picked folderId createdAt).uploads,
      (∃ file ∈ picked, file.id = row.id) ∨ row ∈ s.uploads := by
    intro row hrow
    rcases List.mem_append.mp hrow with hrow | hrow
    · obtain ⟨file, hfile, rfl⟩ := List.mem_map.mp hrow
      exact Or.inl ⟨file, hfile, rfl⟩
    · exact Or.inr hrow
  refine inv_of_same h (fun _ => rfl) rfl rfl rfl (fun id hid => List.mem_append_right _ hid) (fun _ _ hnumber => hnumber)
    ?_ ?_ ?_
  · show ((picked.map (·.row folderId createdAt) ++ s.uploads).map (·.id)).Nodup
    rw [List.map_append, List.map_map]
    refine List.nodup_append.mpr ⟨hnodup, h.nodup, ?_⟩
    rintro _ hid _ hid' rfl
    obtain ⟨file, hfile, rfl⟩ := List.mem_map.mp hid
    obtain ⟨row, hrow, heq⟩ := List.mem_map.mp hid'
    refine hnew file hfile ?_
    have hknown := h.rows row hrow
    rwa [heq] at hknown
  · intro row hrow
    rcases hmem row hrow with ⟨file, hfile, heq⟩ | hrow
    · rw [← heq]
      exact List.mem_append_left _ (List.mem_map_of_mem hfile)
    · exact List.mem_append_right _ (h.rows row hrow)
  · intro hmounted number run hrun hgoing row hrow hof
    have hold := h.named number run hrun
    rcases hmem row hrow with ⟨file, hfile, heq⟩ | hrow
    · rw [← hof, ← heq] at hold
      exact absurd hold (hnew file hfile)
    · have hfit := h.fits hmounted number run hrun hgoing row hrow hof
      have hfiles : (s.addFiles picked folderId createdAt).files run.id = s.files run.id := by
        have hnone : (picked.any fun file => file.id = run.id && file.refusal.isNone) = false := by
          rw [List.any_eq_false]
          intro file hfile heq
          rw [Bool.and_eq_true, decide_eq_true_eq] at heq
          rw [← heq.1] at hold
          exact hnew file hfile hold
        show (s.files run.id || _) = s.files run.id
        rw [hnone, Bool.or_false]
      refine ⟨?_, ?_⟩
      · intro hlive
        rw [hfiles]
        exact hfit.live hlive
      · intro hstopped
        rw [hfiles]
        exact hfit.stopped hstopped

theorem UploadsStore.Inv.settle (h : s.Inv) (update : UiUpload → UiUpload) (hrun : s.runs number = some run)
    (hsettled : run.phase = .settled) (hid : ∀ row, (update row).id = row.id) {files : String → Bool}
    (hfiles : ∀ id, id ≠ run.id → files id = s.files id) :
    UploadsStore.Inv { s with uploads := patchRows run.id update s.uploads, files } := by
  refine inv_of_same h (fun _ => rfl) rfl rfl rfl (fun _ hid => hid) (fun _ _ hnumber => hnumber) ?_ ?_ ?_
  · show ((patchRows run.id update s.uploads).map (·.id)).Nodup
    rw [ids_patchRows hid]
    exact h.nodup
  · intro row hrow
    obtain ⟨old, hold, heq, -, -⟩ := of_mem_patchRows hid hrow
    have hknown := h.rows old hold
    rwa [heq] at hknown
  · intro hmounted other run' hother hgoing row hrow hof
    have hne : run'.id ≠ run.id := by
      intro heq
      have hsame := h.one other run' number run hother hrun hgoing.unfinished (unfinished_of_phase hsettled nofun) heq
      have hboth : some run' = some run := by rw [← hother, ← hrun, hsame]
      rw [Option.some.inj hboth] at hgoing
      exact hgoing.1 hsettled
    obtain ⟨old, hold, heq, -, hsame⟩ := of_mem_patchRows hid hrow
    have hfit := h.fits hmounted other run' hother hgoing old hold (heq.trans hof)
    rw [hsame (by rw [hof]; exact hne)]
    have hfile : files run'.id = s.files run'.id := hfiles run'.id hne
    refine ⟨?_, ?_⟩
    · intro hlive
      obtain ⟨hcontrol, hstill, hactive⟩ := hfit.live hlive
      exact ⟨hcontrol, hfile.trans hstill, hactive⟩
    · intro hstopped
      exact ⟨hfile.trans (hfit.stopped hstopped).1, (hfit.stopped hstopped).2⟩

theorem inv_resolved (h : s.Inv) (hrun : s.runs number = some run) (hphase : run.phase = .resolving) :
    (s.resolved number run).Inv := by
  have hsettled := h.setPhase hrun .settled (unfinished_of_phase hphase nofun) nofun fun hgoing => absurd rfl hgoing.1
  have hsame : (s.setRun number { run with phase := .settled }).runs number = some { run with phase := .settled } :=
    Function.update_self ..
  unfold UploadsStore.resolved
  dsimp only
  split_ifs
  · refine hsettled.settle succeeded hsame rfl (fun _ => rfl) ?_
    intro id hid
    exact Function.update_of_ne hid ..
  · exact hsettled

theorem inv_rejected {error : RunError} (h : s.Inv) (hrun : s.runs number = some run)
    (hphase : run.phase = .rejecting error) : (s.rejected number run error).Inv := by
  have hsettled := h.setPhase hrun .settled (unfinished_of_phase hphase nofun) nofun fun hgoing => absurd rfl hgoing.1
  have hsame : (s.setRun number { run with phase := .settled }).runs number = some { run with phase := .settled } :=
    Function.update_self ..
  unfold UploadsStore.rejected
  dsimp only
  split_ifs
  · exact hsettled.settle canceledRow hsame rfl (fun _ => rfl) fun _ _ => rfl
  · exact hsettled.settle (failedWith error.message error.retryable) hsame rfl (fun _ => rfl) fun _ _ => rfl
  · exact hsettled

theorem inv_finish (h : s.Inv) (hrun : s.runs number = some run) (hphase : run.phase = .settled) :
    (s.finish number run).Inv := by
  have hone : ∀ other run', (s.finish number run).runs other = some run' →
      (other = number ∧ run' = { run with phase := .finished }) ∨ other ≠ number ∧ s.runs other = some run' := by
    intro other run' hother
    have hother : (s.setRun number { run with phase := .finished }).runs other = some run' := hother
    rw [runs_setRun] at hother
    split_ifs at hother with heq
    · cases hother
      exact Or.inl ⟨heq, rfl⟩
    · exact Or.inr ⟨heq, hother⟩
  have hkeep : ∀ other run', other ≠ number → s.runs other = some run' → (s.finish number run).runs other = some run' := by
    intro other run' hne hother
    show (s.setRun number { run with phase := .finished }).runs other = some run'
    rw [runs_setRun, if_neg hne]
    exact hother
  have hopen : run.Unfinished := unfinished_of_phase hphase nofun
  refine ⟨h.nodup, h.rows, ?_, ?_, ?_, ?_, ?_, h.rendered, ?_⟩
  · intro other hother
    cases hrun' : (s.finish number run).runs other with
    | none => rfl
    | some run' =>
      have hnone := h.numbered other hother
      rcases hone other run' hrun' with ⟨rfl, -⟩ | ⟨-, hold⟩
      · rw [hnone] at hrun
        cases hrun
      · rw [hnone] at hold
        cases hold
  · intro other run' hother
    rcases hone other run' hother with ⟨-, rfl⟩ | ⟨-, hold⟩
    · exact h.named number run hrun
    · exact h.named other run' hold
  · intro name other hcontrol
    have hcontrol : Function.update s.controllers run.id none name = some other := hcontrol
    rw [Function.update_apply] at hcontrol
    split_ifs at hcontrol with hname
    obtain ⟨old, hold, hof⟩ := h.controlled name other hcontrol
    refine ⟨old, hkeep other old ?_ hold, hof⟩
    rintro rfl
    rw [hrun] at hold
    cases hold
    exact hname hof.symm
  · intro name
    show Function.update s.running run.id false name = true ↔ _
    rw [Function.update_apply]
    split_ifs with hname
    · refine ⟨fun hfalse => absurd hfalse (by simp), ?_⟩
      rintro ⟨other, run', hrun', hopen', hof⟩
      rcases hone other run' hrun' with ⟨-, rfl⟩ | ⟨hne, hold⟩
      · exact absurd rfl hopen'
      · exact absurd (h.one other run' number run hold hrun hopen' hopen (hof.trans hname)) hne
    · rw [h.running name]
      constructor
      · rintro ⟨other, old, hold, hopen', hof⟩
        refine ⟨other, old, hkeep other old ?_ hold, hopen', hof⟩
        rintro rfl
        rw [hrun] at hold
        cases hold
        exact hname hof.symm
      · rintro ⟨other, run', hrun', hopen', hof⟩
        rcases hone other run' hrun' with ⟨-, rfl⟩ | ⟨-, hold⟩
        · exact absurd rfl hopen'
        · exact ⟨other, run', hold, hopen', hof⟩
  · intro i x j y hx hy hxopen hyopen hxy
    rcases hone i x hx with ⟨-, rfl⟩ | ⟨-, hx⟩
    · exact absurd rfl hxopen
    · rcases hone j y hy with ⟨-, rfl⟩ | ⟨-, hy⟩
      · exact absurd rfl hyopen
      · exact h.one i x j y hx hy hxopen hyopen hxy
  · intro hmounted other run' hother hgoing row hrow hof
    rcases hone other run' hother with ⟨-, rfl⟩ | ⟨hne, hold⟩
    · exact absurd rfl hgoing.2
    · have hfit := h.fits hmounted other run' hold hgoing row hrow hof
      refine ⟨?_, hfit.stopped⟩
      intro hlive
      have hname : run'.id ≠ run.id := fun heq =>
        hne (h.one other run' number run hold hrun hgoing.unfinished hopen heq)
      have hcontrol : (s.finish number run).controllers run'.id = s.controllers run'.id := Function.update_of_ne hname ..
      rw [hcontrol]
      exact hfit.live hlive

theorem inv_onSession {session : SessionInfo} (h : s.Inv) (hrun : s.runs number = some run)
    (hphase : run.phase = .creating) : (s.onSession number run session).Inv := by
  have hgoing : run.Going := going_of_phase hphase nofun nofun
  refine UploadsStore.Inv.patch (h.setPhase hrun _ hgoing.unfinished ?_ fun _ => hgoing) (fun _ => rfl) ?_
  · split_ifs <;> nofun
  · intro _ _ _ _ _ _ row _ _ hfit
    exact ⟨hfit.live, hfit.stopped⟩

theorem inv_onVerifying (h : s.Inv) (hrun : s.runs number = some run) (hphase : run.phase = .transferring)
    (hlive : run.aborted = false) :
    ((s.setRun number { run with phase := .verifying }).patch run.id verifyingRow).Inv := by
  have hgoing : run.Going := going_of_phase hphase nofun nofun
  have hmoved := h.setPhase hrun .verifying hgoing.unfinished nofun fun _ => hgoing
  refine hmoved.patch (fun _ => rfl) ?_
  intro _ other run' hother hgoing' hof row _ _ hfit
  refine ⟨fun hrun' => ⟨(hfit.live hrun').1, (hfit.live hrun').2.1, rfl⟩, ?_⟩
  -- the only run of the row that goes on is this one, which is not aborted
  intro hstopped
  have hsame : (s.setRun number { run with phase := .verifying }).runs number = some { run with phase := .verifying } :=
    Function.update_self ..
  have hnumber := hmoved.one other run' number _ hother hsame hgoing'.unfinished nofun hof
  rw [hnumber, hsame] at hother
  cases hother
  have hstopped : run.aborted = true := hstopped
  rw [hlive] at hstopped
  cases hstopped

theorem inv_onProgress {bytesDone : ℤ} {etaSeconds : Option ℤ} (h : s.Inv) :
    (s.patch run.id (applyProgress bytesDone etaSeconds)).Inv := by
  refine h.patch (fun _ => rfl) ?_
  intro _ _ _ _ _ _ row _ _ hfit
  exact ⟨hfit.live, hfit.stopped⟩

inductive RowStep (s : UploadsStore) : RowAction → UploadsStore → Prop
  | addFiles {picked : List PickedFile} {folderId : Option String} {createdAt : String} (hmounted : s.mounted = true)
      (hnodup : (picked.map (·.id)).Nodup) (hnew : ∀ file ∈ picked, file.id ∉ s.known) :
      RowStep s (.addFiles picked folderId createdAt) (s.addFiles picked folderId createdAt)
  | render (hmounted : s.mounted = true) : RowStep s .render { s with rendered := some s.uploads }
  | effects {uploads : List UiUpload} (hmounted : s.mounted = true) (hrendered : s.rendered = some uploads) :
      RowStep s .effects (s.effects uploads)
  | cancel {id : String} (hmounted : s.mounted = true) : RowStep s (.cancel id) (s.cancel id)
  | retry {id : String} (hmounted : s.mounted = true) : RowStep s (.retry id) (s.retry id)
  | dismiss {id : String} (hmounted : s.mounted = true) : RowStep s (.dismiss id) (s.dismiss id)
  | unmount (hmounted : s.mounted = true) : RowStep s .unmount s.unmount
  | onSession {number : ℕ} {run : EngineRun} {session : SessionInfo} (hrun : s.runs number = some run)
      (hphase : run.phase = .creating) : RowStep s (.onSession number session) (s.onSession number run session)
  | onProgress {number : ℕ} {run : EngineRun} {bytesDone : ℤ} {etaSeconds : Option ℤ} (hrun : s.runs number = some run) :
      RowStep s (.onProgress number bytesDone etaSeconds) (s.patch run.id (applyProgress bytesDone etaSeconds))
  | onVerifying {number : ℕ} {run : EngineRun} (hrun : s.runs number = some run) (hphase : run.phase = .transferring)
      (hlive : run.aborted = false) :
      RowStep s (.onVerifying number) ((s.setRun number { run with phase := .verifying }).patch run.id verifyingRow)
  | onVerified {number : ℕ} {run : EngineRun} (hrun : s.runs number = some run) (hphase : run.phase = .verifying) :
      RowStep s (.onVerified number) (s.setRun number { run with phase := .resolving })
  | onFailure {number : ℕ} {run : EngineRun} {error : RunError} (hrun : s.runs number = some run)
      (hphase : run.phase = .creating ∨ run.phase = .transferring ∨ run.phase = .verifying) :
      RowStep s (.onFailure number error) (s.setRun number { run with phase := .rejecting error })
  | thenRun {number : ℕ} {run : EngineRun} (hrun : s.runs number = some run) (hphase : run.phase = .resolving) :
      RowStep s (.thenRun number) (s.resolved number run)
  | catchRun {number : ℕ} {run : EngineRun} {error : RunError} (hrun : s.runs number = some run)
      (hphase : run.phase = .rejecting error) : RowStep s (.catchRun number) (s.rejected number run error)
  | finallyRun {number : ℕ} {run : EngineRun} (hrun : s.runs number = some run) (hphase : run.phase = .settled) :
      RowStep s (.finallyRun number) (s.finish number run)

theorem rowStep_of_step {action : RowAction} (h : s.step action = some s') : RowStep s action s' := by
  have hguard : ∀ {p : Prop} [Decidable p] {t : UploadsStore}, (if p then some t else none) = some s' → p ∧ t = s' := by
    intro p _ t hstep
    split_ifs at hstep with hp
    exact ⟨hp, Option.some.inj hstep⟩
  cases action with
  | addFiles picked folderId createdAt =>
    obtain ⟨⟨hmounted, hnodup, hnew⟩, rfl⟩ := hguard h
    exact .addFiles hmounted hnodup hnew
  | render =>
    obtain ⟨⟨hmounted, -⟩, rfl⟩ := hguard h
    exact .render hmounted
  | effects =>
    obtain ⟨uploads, hrendered, hstep⟩ := Option.bind_eq_some_iff.mp h
    obtain ⟨hmounted, rfl⟩ := hguard hstep
    exact .effects hmounted hrendered
  | cancel id =>
    obtain ⟨hmounted, rfl⟩ := hguard h
    exact .cancel hmounted
  | retry id =>
    obtain ⟨hmounted, rfl⟩ := hguard h
    exact .retry hmounted
  | dismiss id =>
    obtain ⟨hmounted, rfl⟩ := hguard h
    exact .dismiss hmounted
  | unmount =>
    obtain ⟨hmounted, rfl⟩ := hguard h
    exact .unmount hmounted
  | onSession number session =>
    obtain ⟨run, hrun, hstep⟩ := Option.bind_eq_some_iff.mp h
    obtain ⟨hphase, rfl⟩ := hguard hstep
    exact .onSession hrun hphase
  | onProgress number bytesDone etaSeconds =>
    obtain ⟨run, hrun, hstep⟩ := Option.bind_eq_some_iff.mp h
    cases hstep
    exact .onProgress hrun
  | onVerifying number =>
    obtain ⟨run, hrun, hstep⟩ := Option.bind_eq_some_iff.mp h
    obtain ⟨⟨hphase, hlive⟩, rfl⟩ := hguard hstep
    exact .onVerifying hrun hphase hlive
  | onVerified number =>
    obtain ⟨run, hrun, hstep⟩ := Option.bind_eq_some_iff.mp h
    obtain ⟨hphase, rfl⟩ := hguard hstep
    exact .onVerified hrun hphase
  | onFailure number error =>
    obtain ⟨run, hrun, hstep⟩ := Option.bind_eq_some_iff.mp h
    obtain ⟨hphase, rfl⟩ := hguard hstep
    exact .onFailure hrun hphase
  | thenRun number =>
    obtain ⟨run, hrun, hstep⟩ := Option.bind_eq_some_iff.mp h
    obtain ⟨hphase, rfl⟩ := hguard hstep
    exact .thenRun hrun hphase
  | catchRun number =>
    obtain ⟨run, hrun, hstep⟩ := Option.bind_eq_some_iff.mp h
    split at hstep
    · rename_i error hphase
      cases hstep
      exact .catchRun hrun hphase
    · cases hstep
  | finallyRun number =>
    obtain ⟨run, hrun, hstep⟩ := Option.bind_eq_some_iff.mp h
    obtain ⟨hphase, rfl⟩ := hguard hstep
    exact .finallyRun hrun hphase

/-- **Every step keeps the invariant.** -/
theorem inv_rowStep {action : RowAction} (h : s.Inv) (hstep : RowStep s action s') : s'.Inv := by
  cases hstep with
  | addFiles _ hnodup hnew => exact inv_addFiles h hnodup hnew
  | render => exact inv_render h
  | effects hmounted hrendered => exact inv_effects h hmounted hrendered
  | cancel => exact inv_cancel h
  | retry => exact inv_retry h
  | dismiss => exact inv_dismiss h
  | unmount => exact inv_unmount h
  | onSession hrun hphase => exact inv_onSession h hrun hphase
  | onProgress => exact inv_onProgress h
  | onVerifying hrun hphase hlive => exact inv_onVerifying h hrun hphase hlive
  | onVerified hrun hphase =>
    exact h.setPhase hrun .resolving (unfinished_of_phase hphase nofun) nofun fun _ => going_of_phase hphase nofun nofun
  | onFailure hrun hphase =>
    rename_i number run error
    have hgoing : run.Going := by
      rcases hphase with hphase | hphase | hphase
      · exact going_of_phase hphase nofun nofun
      · exact going_of_phase hphase nofun nofun
      · exact going_of_phase hphase nofun nofun
    exact h.setPhase hrun (.rejecting error) hgoing.unfinished nofun fun _ => hgoing
  | thenRun hrun hphase => exact inv_resolved h hrun hphase
  | catchRun hrun hphase => exact inv_rejected h hrun hphase
  | finallyRun hrun hphase => exact inv_finish h hrun hphase

end Steps

/-! ## Which steps are sound -/

section Soundness

variable {s s' : UploadsStore} {action : RowAction} {id : String} {update : UiUpload → UiUpload} {number : ℕ}
  {run : EngineRun}

theorem UploadsStore.Inv.row_unique (h : s.Inv) {row row' : UiUpload} (hrow : row ∈ s.uploads) (hrow' : row' ∈ s.uploads)
    (hid : row.id = row'.id) : row = row' := List.inj_on_of_nodup_map h.nodup hrow hrow' hid

theorem kept_of_moves (h : s.Inv) (hmoves : ∀ row' ∈ s'.uploads, row'.id ∉ s.known ∨ ∃ old ∈ s.uploads, old.id = row'.id ∧
    (isOutcome old.status = true → action ≠ .retry old.id → row'.status = old.status)) :
    Kept s action s' ∧ StaysGone s s' := by
  constructor
  · intro row hrow houtcome hretry row' hrow' hof
    rcases hmoves row' hrow' with hnew | ⟨old, hold, hid, hsame⟩
    · rw [hof] at hnew
      exact absurd (h.rows row hrow) hnew
    · obtain rfl := h.row_unique hold hrow (hid.trans hof)
      exact hsame houtcome hretry
  · rintro _ hknown hgone row' hrow' rfl
    rcases hmoves row' hrow' with hnew | ⟨old, hold, hid, -⟩
    · exact hnew hknown
    · exact hgone old hold hid

theorem moves_patchRows (huploads : s'.uploads = patchRows id update s.uploads) (hid : ∀ row, (update row).id = row.id)
    (hkeep : ∀ old ∈ s.uploads, old.id = id → isOutcome old.status = true → action ≠ .retry old.id →
      (update old).status = old.status) : ∀ row' ∈ s'.uploads, row'.id ∉ s.known ∨ ∃ old ∈ s.uploads, old.id = row'.id ∧
        (isOutcome old.status = true → action ≠ .retry old.id → row'.status = old.status) := by
  intro row' hrow'
  rw [huploads] at hrow'
  obtain ⟨old, hold, heq, hsame, hother⟩ := of_mem_patchRows hid hrow'
  refine Or.inr ⟨old, hold, heq, ?_⟩
  intro houtcome hretry
  by_cases hrowid : row'.id = id
  · rw [hsame hrowid]
    exact hkeep old hold (heq.trans hrowid) houtcome hretry
  · rw [hother hrowid]

theorem status_of_kept (hkept : Kept s action s') (huploads : s'.uploads = patchRows id update s.uploads)
    (hid : ∀ row, (update row).id = row.id) (hretry : ∀ id, action ≠ .retry id) {row : UiUpload} (hrow : row ∈ s.uploads)
    (hof : row.id = id) (houtcome : isOutcome row.status = true) : (update row).status = row.status := by
  refine hkept row hrow houtcome (hretry row.id) (update row) ?_ (hid row)
  rw [huploads]
  exact mem_patchRows.mpr ⟨row, hrow, if_pos hof⟩

theorem uploads_patch (hid : ∀ row, (update row).id = row.id) :
    ∀ row' ∈ (s.patch id update).uploads, ∃ old ∈ s.uploads, old.id = row'.id ∧ (row'.id ≠ id → row' = old) := by
  intro row' hrow'
  unfold UploadsStore.patch UploadsStore.setUploads at hrow'
  split_ifs at hrow'
  · obtain ⟨old, hold, heq, -, hother⟩ := of_mem_patchRows hid hrow'
    exact ⟨old, hold, heq, hother⟩
  · exact ⟨row', hrow', rfl, fun _ => rfl⟩

theorem uploads_start :
    ∀ row' ∈ (s.start id).uploads, ∃ old ∈ s.uploads, old.id = row'.id ∧ (row'.id ≠ id → row' = old) := by
  unfold UploadsStore.start
  split_ifs
  · exact uploads_patch fun _ => rfl
  · exact fun row' hrow' => ⟨row', hrow', rfl, fun _ => rfl⟩
  · exact uploads_patch (s := s) fun _ => rfl

theorem uploads_starts {ids : List String} : ∀ row' ∈ (ids.foldl UploadsStore.start s).uploads,
    ∃ old ∈ s.uploads, old.id = row'.id ∧ (row'.id ∉ ids → row' = old) := by
  induction ids generalizing s with
  | nil => exact fun row' hrow' => ⟨row', hrow', rfl, fun _ => rfl⟩
  | cons id ids ih =>
    intro row' hrow'
    obtain ⟨mid, hmid, hmidid, hmidsame⟩ := ih row' hrow'
    obtain ⟨old, hold, holdid, holdsame⟩ := uploads_start mid hmid
    refine ⟨old, hold, holdid.trans hmidid, ?_⟩
    intro hnot
    obtain ⟨hne, hrest⟩ := not_or.mp (mt List.mem_cons.mpr hnot)
    obtain rfl := hmidsame hrest
    exact holdsame hne

theorem kept_patch (update : UiUpload → UiUpload) (h : s.Inv) (hid : ∀ row, (update row).id = row.id)
    (hkeep : s.mounted = true → ∀ old ∈ s.uploads, old.id = id → isOutcome old.status = true →
      action ≠ .retry old.id → (update old).status = old.status)
    (huploads : s'.uploads = (s.patch id update).uploads) : Kept s action s' ∧ StaysGone s s' := by
  unfold UploadsStore.patch UploadsStore.setUploads at huploads
  split_ifs at huploads with hmounted
  · exact kept_of_moves h (moves_patchRows huploads hid (hkeep hmounted))
  · refine kept_of_moves h ?_
    intro row' hrow'
    rw [huploads] at hrow'
    exact Or.inr ⟨row', hrow', rfl, fun _ _ => rfl⟩

theorem UploadsStore.Inv.not_outcome (h : s.Inv) (hmounted : s.mounted = true) (hrun : s.runs number = some run)
    (hgoing : run.Going) (hlive : run.aborted = false) {row : UiUpload} (hrow : row ∈ s.uploads) (hof : row.id = run.id) :
    isOutcome row.status = false := by
  have hactive := ((h.fits hmounted number run hrun hgoing row hrow hof).live hlive).2.2
  revert hactive
  cases row.status <;> decide

theorem kept_of_uploads_eq (h : s.Inv) (huploads : s'.uploads = s.uploads) : Kept s action s' ∧ StaysGone s s' := by
  refine kept_of_moves h ?_
  intro row' hrow'
  rw [huploads] at hrow'
  exact Or.inr ⟨row', hrow', rfl, fun _ _ => rfl⟩

theorem uploads_patch_setRun : ((s.setRun number run).patch id update).uploads = (s.patch id update).uploads := by
  unfold UploadsStore.patch UploadsStore.setUploads
  show UploadsStore.uploads (if s.mounted = true then _ else _) = UploadsStore.uploads (if s.mounted = true then _ else _)
  split_ifs <;> rfl

theorem kept_addFiles {picked : List PickedFile} {folderId : Option String} {createdAt : String} (h : s.Inv)
    (hnew : ∀ file ∈ picked, file.id ∉ s.known) :
    Kept s action (s.addFiles picked folderId createdAt) ∧ StaysGone s (s.addFiles picked folderId createdAt) := by
  refine kept_of_moves h ?_
  intro row' hrow'
  rcases List.mem_append.mp hrow' with hrow' | hrow'
  · obtain ⟨file, hfile, rfl⟩ := List.mem_map.mp hrow'
    exact Or.inl (hnew file hfile)
  · exact Or.inr ⟨row', hrow', rfl, fun _ _ => rfl⟩

/-- What a start makes of the status of its row, which no run is of. -/
def startedStatus (s : UploadsStore) (id : String) : UploadStatus := if s.files id = false then .failed else .uploading

theorem files_start : (s.start id).files = s.files := by
  unfold UploadsStore.start UploadsStore.patch UploadsStore.setUploads
  split_ifs <;> rfl

theorem running_start {other : String} (h : other ≠ id) : (s.start id).running other = s.running other := by
  unfold UploadsStore.start
  split_ifs
  · unfold UploadsStore.patch UploadsStore.setUploads
    split_ifs <;> rfl
  · rfl
  · exact Function.update_of_ne h ..

theorem status_start (hmounted : s.mounted = true) (hidle : s.running id = false) {row' : UiUpload}
    (hrow' : row' ∈ (s.start id).uploads) (hof : row'.id = id) : row'.status = startedStatus s id := by
  unfold UploadsStore.start UploadsStore.patch UploadsStore.setUploads at hrow'
  unfold startedStatus
  rw [hidle, if_neg Bool.false_ne_true] at hrow'
  have hids : ∀ row, (failedWith noLongerAvailable false row).id = row.id := fun _ => rfl
  have hids' : ∀ row, (uploadingRow row).id = row.id := fun _ => rfl
  split_ifs at hrow' ⊢
  · obtain ⟨_, -, -, hnew, -⟩ := of_mem_patchRows hids hrow'
    rw [hnew hof]
    rfl
  · obtain ⟨_, -, -, hnew, -⟩ := of_mem_patchRows hids' hrow'
    rw [hnew hof]
    rfl

theorem status_starts {ids : List String} (hmounted : s.mounted = true) (hnodup : ids.Nodup)
    (hidle : ∀ id ∈ ids, s.running id = false) : ∀ row' ∈ (ids.foldl UploadsStore.start s).uploads, row'.id ∈ ids →
      row'.status = startedStatus s row'.id := by
  induction ids generalizing s with
  | nil => exact fun _ _ hof => by cases hof
  | cons id ids ih =>
    obtain ⟨hnot, hrest⟩ := List.nodup_cons.mp hnodup
    intro row' hrow' hof
    by_cases hlater : row'.id ∈ ids
    · have hidle' : ∀ other ∈ ids, (s.start id).running other = false := by
        intro other hother
        have hne : other ≠ id := by
          rintro rfl
          exact hnot hother
        rw [running_start hne]
        exact hidle other (List.mem_cons_of_mem _ hother)
      have hstatus := ih (mounted_start.trans hmounted) hrest hidle' row' hrow' hlater
      unfold startedStatus at hstatus ⊢
      rwa [files_start] at hstatus
    · -- the later starts leave the row
      have hrow' : row' ∈ (ids.foldl UploadsStore.start (s.start id)).uploads := hrow'
      obtain ⟨mid, hmid, -, hsame⟩ := uploads_starts row' hrow'
      obtain rfl := hsame hlater
      have hid := (List.mem_cons.mp hof).resolve_right hlater
      rw [hid]
      exact status_start hmounted (hidle id List.mem_cons_self) hmid hid

theorem ids_starts {ids : List String} : (ids.foldl UploadsStore.start s).uploads.map (·.id) = s.uploads.map (·.id) := by
  induction ids generalizing s with
  | nil => rfl
  | cons id ids ih =>
    refine ih.trans ?_
    unfold UploadsStore.start UploadsStore.patch UploadsStore.setUploads
    split_ifs
    · exact ids_patchRows fun _ => rfl
    · rfl
    · rfl
    · exact ids_patchRows fun _ => rfl
    · rfl

theorem kept_effects_iff {uploads : List UiUpload} (h : s.Inv) (hmounted : s.mounted = true)
    (hrendered : s.rendered = some uploads) :
    Kept s .effects (s.effects uploads) ∧ StaysGone s (s.effects uploads) ↔ Orderly s .effects := by
  have hstatus : ∀ row' ∈ (s.effects uploads).uploads, row'.id ∈ s.picks uploads →
      row'.status = startedStatus s row'.id :=
    status_starts hmounted (nodup_picks (h.rendered uploads hrendered).1) fun id hid => (of_mem_picks hid).2
  constructor
  · rintro ⟨hkept, -⟩ _ hsome row hrow hpicked houtcome
    rw [hrendered] at hsome
    cases hsome
    have hlisted : row.id ∈ (s.effects uploads).uploads.map (·.id) := by
      unfold UploadsStore.effects
      rw [ids_starts]
      exact List.mem_map_of_mem hrow
    obtain ⟨row', hrow', hof⟩ := List.mem_map.mp hlisted
    have hsame := hkept row hrow houtcome nofun row' hrow' hof
    rw [hstatus row' hrow' (hof ▸ hpicked), hof] at hsame
    unfold startedStatus at hsame
    split_ifs at hsame with hfile
    · exact ⟨hsame.symm, hfile⟩
    · rw [← hsame] at houtcome
      cases houtcome
  · intro horderly
    refine kept_of_moves h ?_
    intro row' hrow'
    obtain ⟨old, hold, hid, hsame⟩ := uploads_starts row' hrow'
    refine Or.inr ⟨old, hold, hid, ?_⟩
    intro houtcome _
    by_cases hpicked : row'.id ∈ s.picks uploads
    · obtain ⟨hfailed, hfile⟩ := horderly uploads hrendered old hold (hid ▸ hpicked) houtcome
      rw [hstatus row' hrow' hpicked, ← hid, startedStatus, if_pos hfile, hfailed]
    · rw [hsame hpicked]

theorem kept_cancel_iff (h : s.Inv) :
    Kept s (.cancel id) (s.cancel id) ∧ StaysGone s (s.cancel id) ↔ Orderly s (.cancel id) := by
  have hids : ∀ row, (canceledRow row).id = row.id := fun _ => rfl
  have huploads : (s.cancel id).uploads = patchRows id canceledRow s.uploads := rfl
  constructor
  · rintro ⟨hkept, -⟩ row hrow hof
    have hcanceled : isOutcome row.status = true → UploadStatus.canceled = row.status :=
      status_of_kept hkept huploads hids nofun hrow hof
    constructor
    · intro hstatus
      rw [hstatus] at hcanceled
      cases hcanceled rfl
    · intro hstatus
      rw [hstatus] at hcanceled
      cases hcanceled rfl
  · intro horderly
    refine kept_of_moves h (moves_patchRows huploads hids ?_)
    intro old hold hof houtcome _
    obtain ⟨hfailed, hdone⟩ := horderly old hold hof
    show UploadStatus.canceled = old.status
    revert houtcome hfailed hdone
    cases old.status <;> decide

theorem kept_retry (h : s.Inv) : Kept s (.retry id) (s.retry id) ∧ StaysGone s (s.retry id) := by
  unfold UploadsStore.retry
  split_ifs
  · refine kept_patch (failedWith noLongerAvailable false) h (fun _ => rfl) ?_ rfl
    rintro _ old _ rfl _ hretry
    exact absurd rfl hretry
  · refine kept_patch requeued h (fun _ => rfl) ?_ rfl
    rintro _ old _ rfl _ hretry
    exact absurd rfl hretry

theorem kept_dismiss (h : s.Inv) : Kept s action (s.dismiss id) ∧ StaysGone s (s.dismiss id) := by
  refine kept_of_moves h ?_
  intro row' hrow'
  exact Or.inr ⟨row', (List.mem_filter.mp hrow').1, rfl, fun _ _ => rfl⟩

theorem uploads_resolved : (s.resolved number run).uploads =
    if s.mounted = true then patchRows run.id succeeded s.uploads else s.uploads := by
  show UploadsStore.uploads (if s.mounted = true then _ else _) = _
  split_ifs <;> rfl

theorem uploads_rejected {error : RunError} : (s.rejected number run error).uploads =
    if s.mounted = true then
      patchRows run.id
        (if error.abort || run.aborted then canceledRow else failedWith error.message error.retryable) s.uploads
    else s.uploads := by
  show UploadsStore.uploads (if s.mounted = true then (if (error.abort || run.aborted) = true then _ else _) else _) = _
  split_ifs <;> rfl

theorem kept_thenRun_iff (h : s.Inv) (hrun : s.runs number = some run) (hphase : run.phase = .resolving) :
    Kept s (.thenRun number) (s.resolved number run) ∧ StaysGone s (s.resolved number run) ↔
      Orderly s (.thenRun number) := by
  have hgoing : run.Going := going_of_phase hphase nofun nofun
  by_cases hmounted : s.mounted = true
  · have huploads : (s.resolved number run).uploads = patchRows run.id succeeded s.uploads := by
      rw [uploads_resolved, if_pos hmounted]
    have hids : ∀ row, (succeeded row).id = row.id := fun _ => rfl
    constructor
    · rintro ⟨hkept, -⟩ _ run' hrun' haborted row hrow hof
      rw [hrun] at hrun'
      cases hrun'
      have hdone : isOutcome row.status = true → UploadStatus.done = row.status :=
        status_of_kept hkept huploads hids nofun hrow hof
      rcases ((h.fits hmounted number run hrun hgoing row hrow hof).stopped haborted).2 with hstatus | hstatus
      · rw [hstatus] at hdone
        cases hdone rfl
      · rw [hstatus] at hdone
        cases hdone rfl
    · intro horderly
      refine kept_of_moves h (moves_patchRows huploads hids ?_)
      intro old hold hof houtcome _
      cases haborted : run.aborted with
      | true => exact absurd hof (horderly hmounted run hrun haborted old hold)
      | false =>
        rw [h.not_outcome hmounted hrun hgoing haborted hold hof] at houtcome
        cases houtcome
  · have huploads : (s.resolved number run).uploads = s.uploads := by
      rw [uploads_resolved, if_neg hmounted]
    exact ⟨fun _ hm => absurd hm hmounted, fun _ => kept_of_uploads_eq h huploads⟩

theorem kept_catchRun_iff {error : RunError} (h : s.Inv) (hrun : s.runs number = some run)
    (hphase : run.phase = .rejecting error) :
    Kept s (.catchRun number) (s.rejected number run error) ∧ StaysGone s (s.rejected number run error) ↔
      Orderly s (.catchRun number) := by
  have hgoing : run.Going := going_of_phase hphase nofun nofun
  by_cases hmounted : s.mounted = true
  · cases haborted : run.aborted with
    | true =>
      have huploads : (s.rejected number run error).uploads = patchRows run.id canceledRow s.uploads := by
        rw [uploads_rejected, if_pos hmounted, if_pos (by rw [haborted, Bool.or_true])]
      have hids : ∀ row, (canceledRow row).id = row.id := fun _ => rfl
      constructor
      · rintro ⟨hkept, -⟩ _ run' hrun' - row hrow hof hstatus
        rw [hrun] at hrun'
        cases hrun'
        have hcanceled : isOutcome row.status = true → UploadStatus.canceled = row.status :=
          status_of_kept hkept huploads hids nofun hrow hof
        rw [hstatus] at hcanceled
        cases hcanceled rfl
      · intro horderly
        refine kept_of_moves h (moves_patchRows huploads hids ?_)
        intro old hold hof _ _
        show UploadStatus.canceled = old.status
        rcases ((h.fits hmounted number run hrun hgoing old hold hof).stopped haborted).2 with hstatus | hstatus
        · exact hstatus.symm
        · exact absurd hstatus (horderly hmounted run hrun haborted old hold hof)
    | false =>
      have horderly : Orderly s (.catchRun number) := by
        intro _ run' hrun' haborted'
        rw [hrun] at hrun'
        cases hrun'
        rw [haborted] at haborted'
        cases haborted'
      refine ⟨fun _ => horderly, fun _ => ?_⟩
      have hnone : ∀ old ∈ s.uploads, old.id = run.id → isOutcome old.status ≠ true := by
        intro old hold hof houtcome
        rw [h.not_outcome hmounted hrun hgoing haborted hold hof] at houtcome
        cases houtcome
      have huploads := @uploads_rejected s number run error
      rw [if_pos hmounted] at huploads
      refine kept_of_moves h (moves_patchRows huploads ?_ fun old hold hof houtcome _ =>
        absurd houtcome (hnone old hold hof))
      intro row
      split_ifs <;> rfl
  · have huploads : (s.rejected number run error).uploads = s.uploads := by
      rw [uploads_rejected, if_neg hmounted]
    exact ⟨fun _ hm => absurd hm hmounted, fun _ => kept_of_uploads_eq h huploads⟩

/-- **A step is sound exactly if it is orderly.** -/
theorem sound_iff_orderly (h : s.Inv) (hstep : RowStep s action s') : Sound s action s' ↔ Orderly s action := by
  have hone : OneRun s' := (inv_rowStep h hstep).one
  have hsplit : Sound s action s' ↔ Kept s action s' ∧ StaysGone s s' := by
    unfold Sound
    rw [← and_assoc]
    exact and_iff_left hone
  rw [hsplit]
  cases hstep with
  | addFiles _ _ hnew => exact iff_of_true (kept_addFiles h hnew) trivial
  | render => exact iff_of_true (kept_of_uploads_eq h rfl) trivial
  | effects hmounted hrendered => exact kept_effects_iff h hmounted hrendered
  | cancel => exact kept_cancel_iff h
  | retry => exact iff_of_true (kept_retry h) trivial
  | dismiss => exact iff_of_true (kept_dismiss h) trivial
  | unmount => exact iff_of_true (kept_of_uploads_eq h rfl) trivial
  | onSession =>
    exact iff_of_true (kept_patch (withSession _) h (fun _ => rfl) (fun _ _ _ _ _ _ => rfl) uploads_patch_setRun) trivial
  | onProgress => exact iff_of_true (kept_patch (applyProgress _ _) h (fun _ => rfl) (fun _ _ _ _ _ _ => rfl) rfl) trivial
  | onVerifying hrun hphase hlive =>
    refine iff_of_true (kept_patch verifyingRow h (fun _ => rfl) ?_ uploads_patch_setRun) trivial
    intro hmounted old hold hof houtcome _
    rw [h.not_outcome hmounted hrun (going_of_phase hphase nofun nofun) hlive hold hof] at houtcome
    cases houtcome
  | onVerified => exact iff_of_true (kept_of_uploads_eq h rfl) trivial
  | onFailure => exact iff_of_true (kept_of_uploads_eq h rfl) trivial
  | thenRun hrun hphase => exact kept_thenRun_iff h hrun hphase
  | catchRun hrun hphase => exact kept_catchRun_iff h hrun hphase
  | finallyRun => exact iff_of_true (kept_of_uploads_eq h rfl) trivial

theorem inv_openedRows {stored : List UiUpload} (h : (stored.map (·.id)).Nodup) : (openedRows stored).Inv where
  nodup := h
  rows _ hrow := List.mem_map_of_mem hrow
  numbered _ _ := rfl
  named _ _ hrun := by cases hrun
  controlled _ _ hcontrol := by cases hcontrol
  running _ := ⟨fun hrunning => (by cases hrunning), fun ⟨_, _, hrun, _⟩ => (by cases hrun)⟩
  one _ _ _ _ hrun := by cases hrun
  rendered _ huploads := by cases huploads
  fits _ _ _ hrun := by cases hrun

end Soundness

/-! ## Runs of the page -/

section Runs

/-- **Rows keep their outcome, dismissed rows stay away and no row has two runs, exactly where every step is orderly**:
where no effect of a render starts a row that got its outcome since, no row that has failed or is done is canceled, no run
that was aborted is fulfilled while its row is listed, and none is rejected after a retry has failed its row. -/
theorem rows_settle_iff {stored : List UiUpload} {tr : List (RowAction × UploadsStore)} (hids : (stored.map (·.id)).Nodup)
    (htr : Path UploadsStore.step (openedRows stored) tr) :
    Throughout Sound (openedRows stored) tr ↔ Throughout (fun s action _ => Orderly s action) (openedRows stored) tr := by
  have hstep : ∀ s action s', UploadsStore.Inv s → s.step action = some s' →
      s'.Inv ∧ (Sound s action s' ↔ Orderly s action) := by
    intro s action s' hinv hs
    have hrow := rowStep_of_step hs
    exact ⟨inv_rowStep hinv hrow, sound_iff_orderly hinv hrow⟩
  constructor
  · exact throughout_of_step (fun s action s' hinv hs hsound =>
      ⟨(hstep s action s' hinv hs).1, (hstep s action s' hinv hs).2.mp hsound⟩) (inv_openedRows hids) htr
  · exact throughout_of_step (fun s action s' hinv hs horderly =>
      ⟨(hstep s action s' hinv hs).1, (hstep s action s' hinv hs).2.mpr horderly⟩) (inv_openedRows hids) htr

instance (s : UploadsStore) (action : RowAction) (s' : UploadsStore) : Decidable (Kept s action s') := by
  unfold Kept
  infer_instance

def photo : PickedFile := ⟨"u-1", "photo.png", 5, none⟩

/-- A file is uploaded as far as to the verify call of the server. -/
def toVerifying : List RowAction :=
  [.addFiles [photo] none "2024-01-01T00:00:00.000Z", .render, .effects, .onSession 0 ⟨"s-1", "single", none, none⟩,
    .onProgress 0 5 none, .onVerifying 0]

/-- The upload is done, and dismissed. -/
theorem photo_settles : Throughout Sound (openedRows []) (trace UploadsStore.step (openedRows [])
      (toVerifying ++ [.onVerified 0, .thenRun 0, .finallyRun 0, .dismiss "u-1"])) ↔
    Throughout (fun s action _ => Orderly s action) (openedRows []) (trace UploadsStore.step (openedRows [])
      (toVerifying ++ [.onVerified 0, .thenRun 0, .finallyRun 0, .dismiss "u-1"])) :=
  rows_settle_iff (by decide) (path_trace _ _)

/-- The user cancels while the server verifies, and the canceled row is then done. -/
theorem canceled_row_done :
    Path UploadsStore.step (openedRows []) (trace UploadsStore.step (openedRows [])
      (toVerifying ++ [.cancel "u-1", .onVerified 0, .thenRun 0])) ∧
    (lastState (openedRows []) (trace UploadsStore.step (openedRows [])
      (toVerifying ++ [.cancel "u-1", .onVerified 0, .thenRun 0]))).uploads.map (·.status) = [.done] ∧
    ¬ Throughout Sound (openedRows []) (trace UploadsStore.step (openedRows [])
      (toVerifying ++ [.cancel "u-1", .onVerified 0, .thenRun 0])) := by
  refine ⟨path_trace _ _, by decide +kernel, ?_⟩
  intro hsound
  have hkept := throughout_mono (fun s action s' (h : Sound s action s') => h.1) hsound
  revert hkept
  decide +kernel

end Runs

end Transform.Web
