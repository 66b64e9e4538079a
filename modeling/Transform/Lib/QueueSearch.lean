import Mathlib.Data.List.Nodup
import Mathlib.Data.List.Perm.Subperm

/-!
# Lib.QueueSearch — a search with a queue

`search` takes the nodes of a queue one after the other and appends what they lead to, if it has not been seen.  What it
finds is what is `Reached` (`search_spec`), and it ends when there are as many rounds as keys.
-/

namespace Transform.Lib

variable {ν ρ : Type} [DecidableEq ν] (key : ρ → ν) (next : ν → List ρ)

/-- The rows whose keys have not been seen, each key once. -/
def fresh : List ν → List ρ → List ρ
  | _, [] => []
  | seen, row :: rows => if key row ∈ seen then fresh seen rows else row :: fresh (key row :: seen) rows

/-- The rows that are found from a queue; `none` where the rounds do not suffice. -/
def search : (rounds : ℕ) → (queue seen : List ν) → (found : List ρ) → Option (List ρ)
  | _, [], _, found => some found
  | 0, _ :: _, _, _ => none
  | rounds + 1, node :: queue, seen, found =>
    let new := fresh key seen (next node)
    search rounds (queue ++ new.map key) (seen ++ new.map key) (found ++ new)

/-- The rows on the ways from a node. -/
inductive Reached (start : ν) : ρ → Prop
  | first {row : ρ} (h : row ∈ next start) : Reached start row
  | step {row row' : ρ} (hreached : Reached start row) (h : row' ∈ next (key row)) : Reached start row'

variable {key next} {start node : ν} {row : ρ} {rows : List ρ} {queue seen : List ν} {found : List ρ} {rounds : ℕ}

/-! ## What is new -/

section Fresh

theorem fresh_subset (h : row ∈ fresh key seen rows) : row ∈ rows := by
  induction rows generalizing seen with
  | nil => exact h
  | cons first rows ih =>
    unfold fresh at h
    split_ifs at h with hseen
    · exact List.mem_cons_of_mem _ (ih h)
    · rcases List.mem_cons.mp h with rfl | hmem
      · exact List.mem_cons_self
      · exact List.mem_cons_of_mem _ (ih hmem)

theorem fresh_new (h : row ∈ fresh key seen rows) : key row ∉ seen := by
  induction rows generalizing seen with
  | nil => cases h
  | cons first rows ih =>
    unfold fresh at h
    split_ifs at h with hseen
    · exact ih h
    · rcases List.mem_cons.mp h with rfl | hmem
      · exact hseen
      · exact fun hold => ih hmem (List.mem_cons_of_mem _ hold)

theorem nodup_fresh : ((fresh key seen rows).map key).Nodup := by
  induction rows generalizing seen with
  | nil => exact List.nodup_nil
  | cons first rows ih =>
    unfold fresh
    split_ifs with hseen
    · exact ih
    · rw [List.map_cons, List.nodup_cons]
      refine ⟨?_, ih⟩
      intro hmem
      obtain ⟨other, hother, hkey⟩ := List.mem_map.mp hmem
      exact fresh_new hother (hkey ▸ List.mem_cons_self)

theorem seen_or_fresh (h : row ∈ rows) : key row ∈ seen ++ (fresh key seen rows).map key := by
  rw [List.mem_append]
  induction rows generalizing seen with
  | nil => cases h
  | cons first rows ih =>
    unfold fresh
    split_ifs with hseen
    · rcases List.mem_cons.mp h with rfl | hmem
      · exact Or.inl hseen
      · exact ih hmem
    · rw [List.map_cons, List.mem_cons]
      rcases List.mem_cons.mp h with rfl | hmem
      · exact Or.inr (Or.inl rfl)
      · have hrest : key row ∈ key first :: seen ∨ key row ∈ (fresh key (key first :: seen) rows).map key := ih hmem
        rcases hrest with hold | hnew
        · rcases List.mem_cons.mp hold with hkey | hold
          · exact Or.inr (Or.inl hkey)
          · exact Or.inl hold
        · exact Or.inr (Or.inr hnew)

end Fresh

/-! ## The search -/

section Search

variable (key next) (start) in
/-- What holds between two rounds: what has been seen is the start and what was found, and what is not waiting leads
nowhere else. -/
structure Searching (queue seen : List ν) (found : List ρ) : Prop where
  seen_iff : ∀ node, node ∈ seen ↔ node = start ∨ ∃ row ∈ found, key row = node
  nodup : seen.Nodup
  distinct : (found.map key).Nodup
  closed : ∀ node ∈ seen, node ∉ queue → ∀ row ∈ next node, key row ∈ seen
  waiting : ∀ node ∈ queue, node ∈ seen
  reached : ∀ row ∈ found, Reached key next start row

omit [DecidableEq ν] in
theorem searching_start : Searching key next start [start] [start] [] where
  seen_iff node := by simp
  nodup := List.nodup_singleton start
  distinct := List.nodup_nil
  closed node hseen hnot := absurd hseen hnot
  waiting _ h := h
  reached _ h := by cases h

theorem Searching.taken (h : Searching key next start (node :: queue) seen found) :
    Searching key next start (queue ++ (fresh key seen (next node)).map key)
      (seen ++ (fresh key seen (next node)).map key) (found ++ fresh key seen (next node)) := by
  have hdisjoint : ∀ row ∈ fresh key seen (next node), key row ∉ seen := fun row hrow => fresh_new hrow
  refine ⟨?_, ?_, ?_, ?_, ?_, ?_⟩
  · intro other
    rw [List.mem_append, h.seen_iff, List.mem_map, or_assoc]
    refine or_congr_right ?_
    constructor
    · rintro (⟨row, hrow, hkey⟩ | ⟨row, hrow, hkey⟩)
      · exact ⟨row, List.mem_append_left _ hrow, hkey⟩
      · exact ⟨row, List.mem_append_right _ hrow, hkey⟩
    · rintro ⟨row, hrow, hkey⟩
      exact (List.mem_append.mp hrow).imp (fun hold => ⟨row, hold, hkey⟩) fun hnew => ⟨row, hnew, hkey⟩
  · refine h.nodup.append nodup_fresh ?_
    intro other hold hnew
    obtain ⟨row, hrow, rfl⟩ := List.mem_map.mp hnew
    exact hdisjoint row hrow hold
  · rw [List.map_append]
    refine h.distinct.append nodup_fresh ?_
    intro other hold hnew
    obtain ⟨row, hrow, rfl⟩ := List.mem_map.mp hnew
    obtain ⟨row', hrow', hkey⟩ := List.mem_map.mp hold
    exact hdisjoint row hrow ((h.seen_iff _).mpr (Or.inr ⟨row', hrow', hkey⟩))
  · intro other hother hnot row hrow
    rw [List.mem_append, not_or] at hnot
    have hold := (List.mem_append.mp hother).resolve_right hnot.2
    by_cases hself : other = node
    · subst hself
      exact seen_or_fresh hrow
    · refine List.mem_append_left _ (h.closed other hold ?_ row hrow)
      exact List.not_mem_cons_of_ne_of_not_mem hself hnot.1
  · intro other hother
    rcases List.mem_append.mp hother with hold | hnew
    · exact List.mem_append_left _ (h.waiting other (List.mem_cons_of_mem _ hold))
    · exact List.mem_append_right _ hnew
  · intro row hrow
    rcases List.mem_append.mp hrow with hold | hnew
    · exact h.reached row hold
    · rcases (h.seen_iff node).mp (h.waiting node List.mem_cons_self) with rfl | ⟨row', hrow', rfl⟩
      · exact .first (fresh_subset hnew)
      · exact .step (h.reached row' hrow') (fresh_subset hnew)

omit [DecidableEq ν] in
theorem Searching.seen_of_reached (h : Searching key next start [] seen found) (hrow : Reached key next start row) :
    key row ∈ seen := by
  induction hrow with
  | first hrow => exact h.closed start ((h.seen_iff start).mpr (Or.inl rfl)) List.not_mem_nil _ hrow
  | step _ hrow ih => exact h.closed _ ih List.not_mem_nil _ hrow

theorem search_of_searching {nodes : List ν} (hnodes : ∀ node, ∀ row ∈ next node, key row ∈ nodes)
    (hstart : start ∈ nodes) (h : Searching key next start queue seen found)
    (hrounds : queue.length + nodes.length ≤ rounds + seen.length) :
    ∃ seen' found', search key next rounds queue seen found = some found' ∧
      Searching key next start [] seen' found' := by
  induction rounds generalizing queue seen found with
  | zero =>
    have hsub : seen ⊆ nodes := by
      intro node hnode
      rcases (h.seen_iff node).mp hnode with rfl | ⟨row, hrow, rfl⟩
      · exact hstart
      · cases h.reached row hrow with
        | first hrow => exact hnodes _ _ hrow
        | step _ hrow => exact hnodes _ _ hrow
    have hlength := (h.nodup.subperm hsub).length_le
    obtain rfl : queue = [] := List.length_eq_zero_iff.mp (by omega)
    exact ⟨seen, found, rfl, h⟩
  | succ rounds ih =>
    cases queue with
    | nil => exact ⟨seen, found, rfl, h⟩
    | cons node queue =>
      refine ih h.taken ?_
      rw [List.length_append, List.length_append]
      rw [List.length_cons] at hrounds
      omega

/-- **The search finds what is reached**, each key once. -/
theorem search_spec {nodes : List ν} (hnodes : ∀ node, ∀ row ∈ next node, key row ∈ nodes) (hstart : start ∈ nodes)
    (hrounds : nodes.length ≤ rounds) : ∃ found, search key next rounds [start] [start] [] = some found ∧
      (found.map key).Nodup ∧ (∀ row ∈ found, Reached key next start row) ∧
      ∀ row, Reached key next start row → key row ≠ start → ∃ row' ∈ found, key row' = key row := by
  have hbegin : Searching key next start [start] [start] [] := searching_start
  have henough : [start].length + nodes.length ≤ rounds + [start].length := by omega
  obtain ⟨seen, found, hsearch, h⟩ := search_of_searching hnodes hstart hbegin henough
  refine ⟨found, hsearch, h.distinct, h.reached, ?_⟩
  intro row hrow hne
  exact ((h.seen_iff _).mp (h.seen_of_reached hrow)).resolve_left hne

end Search

end Transform.Lib
