import Mathlib.Algebra.Order.Field.Basic
import Mathlib.Data.List.Count
import Mathlib.Tactic.Linarith

/-!
# Lib.SlidingLog — admission through a sliding window

A history lists requests, newest first, each with whether it was admitted.  `Greedy` is the rule that a request is
admitted exactly if fewer than `limit` admitted ones still count at its arrival; the arrivals determine such a history
(`greedy_unique`).  For arrivals in order and a window of `width`, the rule says exactly that no window of that width
holds more than `limit` admitted requests and that none is refused for less (`greedy_iff`).
-/

namespace Transform.Lib

section SlidingLog

variable {α : Type}

/-! ## The rule -/

/-- The admitted requests of a history that still count at `now`. -/
def admittedIn (live : α → α → Prop) [DecidableRel live] (now : α) (log : List (α × Bool)) : ℕ :=
  log.countP fun e => e.2 && decide (live e.1 now)

/-- Each request was admitted exactly if fewer than `limit` admitted ones counted when it came. -/
def Greedy (live : α → α → Prop) [DecidableRel live] (limit : ℕ) : List (α × Bool) → Prop
  | [] => True
  | (now, admitted) :: log => (admitted = true ↔ admittedIn live now log < limit) ∧ Greedy live limit log

/-- Each refused request found `limit` admitted ones that counted. -/
def RefusesFull (live : α → α → Prop) [DecidableRel live] (limit : ℕ) : List (α × Bool) → Prop
  | [] => True
  | (now, admitted) :: log => (admitted = false → limit ≤ admittedIn live now log) ∧ RefusesFull live limit log

variable {live : α → α → Prop} [DecidableRel live] {limit : ℕ}

theorem greedy_unique : ∀ {log log' : List (α × Bool)}, log.map Prod.fst = log'.map Prod.fst →
    Greedy live limit log → Greedy live limit log' → log = log'
  | [], [], _, _, _ => rfl
  | [], _ :: _, h, _, _ => by cases h
  | _ :: _, [], h, _, _ => by cases h
  | (now, d) :: log, (now', d') :: log', h, hg, hg' => by
    obtain ⟨rfl, htail⟩ := List.cons_eq_cons.1 h
    have hlog : log = log' := greedy_unique htail hg.2 hg'.2
    subst hlog
    have hd : d = true ↔ d' = true := hg.1.trans hg'.1.symm
    rw [Bool.eq_iff_iff.2 hd]

theorem refusesFull_of_greedy : ∀ {log : List (α × Bool)}, Greedy live limit log → RefusesFull live limit log
  | [], _ => trivial
  | (_, d) :: _, h => by
    refine ⟨fun hd => ?_, refusesFull_of_greedy h.2⟩
    by_contra hlt
    have htrue := h.1.2 (not_le.1 hlt)
    rw [hd] at htrue
    cases htrue

end SlidingLog

/-! ## Windows of time -/

section Windows

variable {α K : Type} [Field K] [LinearOrder K] (time : α → K) (width : K)

/-- A request of `past` counts until `width` has gone by. -/
abbrev Within (past now : α) : Prop := time now - time past < width

/-- The admitted requests of a history in the window of `width` after `from`. -/
def admittedAfter (start : K) (log : List (α × Bool)) : ℕ :=
  log.countP fun e => e.2 && decide (start < time e.1 ∧ time e.1 ≤ start + width)

/-- The arrivals of a history, newest first, are in order of time. -/
def InOrder (arrivals : List α) : Prop := arrivals.Pairwise fun now past => time past ≤ time now

variable {time width} {limit : ℕ}

theorem admittedAfter_cons {start : K} {now : α} {admitted : Bool} {log : List (α × Bool)} :
    admittedAfter time width start ((now, admitted) :: log) = admittedAfter time width start log +
      if admitted = true ∧ start < time now ∧ time now ≤ start + width then 1 else 0 := by
  unfold admittedAfter
  rw [List.countP_cons]
  simp

variable [IsStrictOrderedRing K]

/-- What a window that holds the newest arrival counts, still counts at that arrival. -/
theorem admittedAfter_le_admittedIn {start : K} {now : α} {log : List (α × Bool)} (hnow : time now ≤ start + width) :
    admittedAfter time width start log ≤ admittedIn (Within time width) now log := by
  refine List.countP_mono_left fun e _ he => ?_
  simp only [Bool.and_eq_true, decide_eq_true_eq] at he ⊢
  exact ⟨he.1, by linarith [he.2.1]⟩

theorem admittedIn_le_admittedAfter {now : α} {log : List (α × Bool)} (h : ∀ e ∈ log, time e.1 ≤ time now) :
    admittedIn (Within time width) now log ≤ admittedAfter time width (time now - width) log := by
  refine List.countP_mono_left fun e he hlive => ?_
  simp only [Bool.and_eq_true, decide_eq_true_eq] at hlive ⊢
  have hle := h e he
  exact ⟨hlive.1, by linarith [hlive.2], by linarith⟩

theorem admittedAfter_le_of_greedy {start : K} : ∀ {log : List (α × Bool)},
    Greedy (Within time width) limit log → admittedAfter time width start log ≤ limit
  | [], _ => Nat.zero_le limit
  | (now, d) :: log, h => by
    rw [admittedAfter_cons]
    split_ifs with hd
    · have hlt := h.1.1 hd.1
      have hle : admittedAfter time width start log ≤ admittedIn (Within time width) now log :=
        admittedAfter_le_admittedIn hd.2.2
      omega
    · exact admittedAfter_le_of_greedy h.2

/-- **The rule as two bounds**: among arrivals in order, the rule holds exactly if no window of `width` holds more than
`limit` admitted requests and each refused request found `limit` admitted ones in the `width` before it. -/
theorem greedy_iff (hlimit : 1 ≤ limit) : ∀ {log : List (α × Bool)}, InOrder time (log.map Prod.fst) →
    (Greedy (Within time width) limit log ↔
      (∀ start, admittedAfter time width start log ≤ limit) ∧ RefusesFull (Within time width) limit log)
  | [], _ => ⟨fun _ => ⟨fun _ => Nat.zero_le limit, trivial⟩, fun _ => trivial⟩
  | (now, d) :: log, hord => by
    obtain ⟨hpast, hrest⟩ := List.pairwise_cons.1 hord
    have ih := greedy_iff hlimit hrest
    refine ⟨fun h => ⟨fun _ => admittedAfter_le_of_greedy h, refusesFull_of_greedy h⟩, ?_⟩
    rintro ⟨hmost, hfull⟩
    have htail : ∀ start, admittedAfter time width start log ≤ limit := fun start => by
      have h := hmost start
      rw [admittedAfter_cons] at h
      omega
    refine ⟨⟨fun hd => ?_, fun hlt => ?_⟩, ih.2 ⟨htail, hfull.2⟩⟩
    · have hle : admittedIn (Within time width) now log ≤ admittedAfter time width (time now - width) log :=
        admittedIn_le_admittedAfter fun e he => hpast e.1 (List.mem_map_of_mem he)
      have hone := hmost (time now - width)
      rw [admittedAfter_cons] at hone
      by_cases hw : 0 < width
      · rw [if_pos ⟨hd, by linarith, by linarith⟩] at hone
        omega
      · -- nothing counts in a window without width
        have hzero : admittedIn (Within time width) now log = 0 := by
          refine List.countP_eq_zero.2 fun e he hlive => ?_
          simp only [Bool.and_eq_true, decide_eq_true_eq] at hlive
          have hle' := hpast e.1 (List.mem_map_of_mem he)
          linarith [hlive.2]
        omega
    · by_contra hd
      have hge := hfull.1 (Bool.not_eq_true _ ▸ hd)
      omega

end Windows

end Transform.Lib
