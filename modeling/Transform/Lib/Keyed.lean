import Mathlib.Data.List.Nodup

/-!
# Lib.Keyed — rows found by a key

A table is a list of rows whose keys are different ones; a map is one of pairs, in the order of insertion.
-/

namespace Transform.Lib

variable {α κ : Type} [DecidableEq κ] {key : α → κ} {rows : List α}

theorem find?_key (h : (rows.map key).Nodup) {row : α} (hrow : row ∈ rows) :
    rows.find? (fun other => decide (key other = key row)) = some row := by
  rcases hfound : rows.find? (fun other => decide (key other = key row)) with _ | found
  · have hnone := List.find?_eq_none.1 hfound row hrow
    simp at hnone
  · have hkey : key found = key row := by simpa using List.find?_some hfound
    rw [List.inj_on_of_nodup_map h (List.mem_of_find?_eq_some hfound) hrow hkey]

/-- A row is found exactly if it is one that is looked for and none before it is. -/
theorem find?_iff_takeWhile {row : α} {p : α → Bool} (h : (rows.map key).Nodup)
    (hrow : row ∈ rows) : rows.find? p = some row ↔
      p row = true ∧ ∀ other ∈ rows.takeWhile (fun other => decide (key other ≠ key row)), p other = false := by
  induction rows with
  | nil => cases hrow
  | cons first rest ih =>
    rw [List.map_cons, List.nodup_cons] at h
    rw [List.find?_cons, List.takeWhile_cons]
    by_cases hkey : key first = key row
    · have hrest : row ∉ rest := fun hmem => h.1 (List.mem_map.2 ⟨row, hmem, hkey.symm⟩)
      obtain rfl : row = first := (List.mem_cons.1 hrow).resolve_right hrest
      rw [if_neg (by simp)]
      rcases hp : p row with _ | _
      · exact ⟨fun hfound => absurd (List.mem_of_find?_eq_some hfound) hrest, fun hor => by cases hor.1⟩
      · exact ⟨fun _ => ⟨rfl, fun _ hmem => by cases hmem⟩, fun _ => rfl⟩
    · have hne : row ≠ first := fun heq => hkey (congrArg key heq.symm)
      rw [if_pos (decide_eq_true hkey), List.forall_mem_cons]
      rcases hp : p first with _ | _
      · rw [ih h.2 ((List.mem_cons.1 hrow).resolve_left hne)]
        exact and_congr_right fun _ => (and_iff_right rfl).symm
      · exact ⟨fun hfound => absurd (Option.some.inj hfound).symm hne, fun hor => by cases hor.2.1⟩

omit [DecidableEq κ] in
theorem map_key {f : α → α} (hf : ∀ row, key (f row) = key row) : (rows.map f).map key = rows.map key := by
  rw [List.map_map]
  exact List.map_congr_left fun row _ => hf row

/-! ## Maps in insertion order -/

section Map

variable {β : Type} {entries : List (κ × β)} {k k' : κ} {value : β}

/-- The map with a value for a key; a key that is there keeps its place. -/
def mapSet (entries : List (κ × β)) (k : κ) (value : β) : List (κ × β) :=
  if entries.any (·.1 = k) then entries.map fun e => if e.1 = k then (k, value) else e
  else entries ++ [(k, value)]

def mapGet (entries : List (κ × β)) (k : κ) : Option β := (entries.find? (·.1 = k)).map (·.2)

theorem mapSet_new (h : k ∉ entries.map (·.1)) : mapSet entries k value = entries ++ [(k, value)] := by
  refine if_neg ?_
  rw [List.any_eq_true]
  rintro ⟨e, he, hk⟩
  exact h (List.mem_map.2 ⟨e, he, by simpa using hk⟩)

theorem keys_mapSet : (mapSet entries k value).map (·.1) =
    if k ∈ entries.map (·.1) then entries.map (·.1) else entries.map (·.1) ++ [k] := by
  unfold mapSet
  have hany : entries.any (·.1 = k) = true ↔ k ∈ entries.map (·.1) := by
    rw [List.any_eq_true, List.mem_map]
    simp
  simp only [hany]
  split_ifs
  · rw [List.map_map]
    refine List.map_congr_left fun e _ => ?_
    simp only [Function.comp_apply]
    split_ifs with h
    · exact h.symm
    · rfl
  · rw [List.map_append]
    rfl

theorem mapGet_cons {e : κ × β} : mapGet (e :: entries) k = if e.1 = k then some e.2 else mapGet entries k := by
  unfold mapGet
  rw [List.find?_cons]
  split_ifs with h <;> simp [h]

theorem mapGet_eq_none : mapGet entries k = none ↔ k ∉ entries.map (·.1) := by
  unfold mapGet
  rw [Option.map_eq_none_iff, List.find?_eq_none, List.mem_map]
  constructor
  · rintro h ⟨e, he, hk⟩
    exact h e he (by simpa using hk)
  · intro h e he hk
    exact h ⟨e, he, by simpa using hk⟩

theorem mapGet_mapSet : mapGet (mapSet entries k value) k' = if k' = k then some value else mapGet entries k' := by
  have hset : ∀ entries : List (κ × β), mapGet (entries.map fun e => if e.1 = k then (k, value) else e) k' =
      if k' = k then (mapGet entries k).map fun _ => value else mapGet entries k' := by
    intro entries
    induction entries with
    | nil => simp [mapGet]
    | cons e entries ih =>
      rw [List.map_cons, mapGet_cons, mapGet_cons, mapGet_cons, ih]
      by_cases he : e.1 = k
      · by_cases hk : k' = k
        · simp [he, hk]
        · have hne : k ≠ k' := fun h => hk h.symm
          simp [he, hk, hne]
      · by_cases hk : k' = k
        · simp [he, hk]
        · simp [he, hk]
  unfold mapSet
  split_ifs with hany hk hk
  · have hmem : k ∈ entries.map (·.1) := by simpa [List.any_eq_true] using hany
    rcases hget : mapGet entries k with _ | old
    · exact absurd hmem (mapGet_eq_none.1 hget)
    · rw [hset, if_pos hk, hget]
      rfl
  · rw [hset, if_neg hk]
  · have hmem : k ∉ entries.map (·.1) := by simpa [List.any_eq_true] using hany
    have hnone := mapGet_eq_none.2 hmem
    subst hk
    unfold mapGet at hnone ⊢
    rw [Option.map_eq_none_iff] at hnone
    rw [List.find?_append, hnone]
    simp
  · have hne : k ≠ k' := fun h => hk h.symm
    unfold mapGet
    rw [List.find?_append]
    simp [hne]

theorem mem_of_mapGet (h : mapGet entries k = some value) : (k, value) ∈ entries := by
  unfold mapGet at h
  obtain ⟨e, hfound, rfl⟩ := Option.map_eq_some_iff.1 h
  have hkey : e.1 = k := by simpa using List.find?_some hfound
  rw [← hkey]
  exact List.mem_of_find?_eq_some hfound

/-- The map with another value for the first pair of a key. -/
def mapReplace (k : κ) (value : β) : List (κ × β) → List (κ × β)
  | [] => []
  | e :: entries => if e.1 = k then (k, value) :: entries else e :: mapReplace k value entries

/-- Where the pair of a key stands. -/
theorem mapGet_split (h : mapGet entries k = some value) : ∃ before after, entries = before ++ (k, value) :: after ∧
    (∀ value', mapReplace k value' entries = before ++ (k, value') :: after) ∧
    entries.eraseP (·.1 = k) = before ++ after := by
  induction entries with
  | nil => cases h
  | cons e entries ih =>
    unfold mapGet at h
    by_cases hkey : e.1 = k
    · rw [List.find?_cons_of_pos (by simpa using hkey)] at h
      cases h
      refine ⟨[], entries, ?_, fun value' => if_pos hkey, ?_⟩
      · rw [← hkey]
        rfl
      · rw [List.eraseP_cons_of_pos (by simpa using hkey)]
        rfl
    · rw [List.find?_cons_of_neg (by simpa using hkey)] at h
      obtain ⟨before, after, hentries, hreplace, herase⟩ := ih h
      refine ⟨e :: before, after, congrArg (e :: ·) hentries, fun value' => ?_, ?_⟩
      · show (if e.1 = k then (k, value') :: entries else e :: mapReplace k value' entries) = _
        rw [if_neg hkey, hreplace value']
        rfl
      · rw [List.eraseP_cons_of_neg (by simpa using hkey), herase]
        rfl

theorem mapGet_mapReplace_of_ne (h : k' ≠ k) : mapGet (mapReplace k value entries) k' = mapGet entries k' := by
  induction entries with
  | nil => rfl
  | cons e entries ih =>
    show mapGet (if e.1 = k then (k, value) :: entries else e :: mapReplace k value entries) k' = _
    split_ifs with hkey
    · rw [mapGet_cons, mapGet_cons, if_neg (Ne.symm h), if_neg (hkey ▸ Ne.symm h)]
    · rw [mapGet_cons, mapGet_cons, ih]

theorem mapGet_eraseP_of_ne (h : k' ≠ k) : mapGet (entries.eraseP (·.1 = k)) k' = mapGet entries k' := by
  induction entries with
  | nil => rfl
  | cons e entries ih =>
    by_cases hkey : e.1 = k
    · rw [List.eraseP_cons_of_pos (by simpa using hkey), mapGet_cons, if_neg (hkey ▸ Ne.symm h)]
    · rw [List.eraseP_cons_of_neg (by simpa using hkey), mapGet_cons, mapGet_cons, ih]

theorem keys_mapReplace : (mapReplace k value entries).map (·.1) = entries.map (·.1) := by
  induction entries with
  | nil => rfl
  | cons e entries ih =>
    show (if e.1 = k then (k, value) :: entries else e :: mapReplace k value entries).map (·.1) = _
    split_ifs with hkey
    · rw [List.map_cons, List.map_cons, hkey]
    · rw [List.map_cons, List.map_cons, ih]

theorem mem_mapReplace {e : κ × β} (h : e ∈ mapReplace k value entries) : e = (k, value) ∨ e ∈ entries := by
  induction entries with
  | nil => cases h
  | cons e' entries ih =>
    replace h : e ∈ if e'.1 = k then (k, value) :: entries else e' :: mapReplace k value entries := h
    split_ifs at h
    · exact (List.mem_cons.1 h).imp id (List.mem_cons_of_mem _)
    · rcases List.mem_cons.1 h with rfl | hmem
      · exact .inr List.mem_cons_self
      · exact (ih hmem).imp id (List.mem_cons_of_mem _)

theorem mapGet_mapReplace_self (h : mapGet entries k = some value) {value' : β} :
    mapGet (mapReplace k value' entries) k = some value' := by
  induction entries with
  | nil => cases h
  | cons e entries ih =>
    show mapGet (if e.1 = k then (k, value') :: entries else e :: mapReplace k value' entries) k = _
    rw [mapGet_cons] at h
    split_ifs with hkey
    · rw [mapGet_cons, if_pos rfl]
    · rw [if_neg hkey] at h
      rw [mapGet_cons, if_neg hkey, ih h]

theorem mapGet_eraseP_self (h : (entries.map (·.1)).Nodup) : mapGet (entries.eraseP (·.1 = k)) k = none := by
  induction entries with
  | nil => rfl
  | cons e entries ih =>
    rw [List.map_cons, List.nodup_cons] at h
    by_cases hkey : e.1 = k
    · rw [List.eraseP_cons_of_pos (by simpa using hkey)]
      exact mapGet_eq_none.2 (hkey ▸ h.1)
    · rw [List.eraseP_cons_of_neg (by simpa using hkey), mapGet_cons, if_neg hkey, ih h.2]

theorem eraseP_mapReplace : (mapReplace k value entries).eraseP (·.1 = k) = entries.eraseP (·.1 = k) := by
  induction entries with
  | nil => rfl
  | cons e entries ih =>
    show (if e.1 = k then (k, value) :: entries else e :: mapReplace k value entries).eraseP (·.1 = k) = _
    split_ifs with hkey
    · rw [List.eraseP_cons_of_pos (by simp), List.eraseP_cons_of_pos (by simpa using hkey)]
    · rw [List.eraseP_cons_of_neg (by simpa using hkey), List.eraseP_cons_of_neg (by simpa using hkey), ih]

theorem mapGet_of_mem (h : (entries.map (·.1)).Nodup) {e : κ × β} (he : e ∈ entries) :
    mapGet entries e.1 = some e.2 := by
  rw [mapGet, find?_key h he]
  rfl

/-- Maps that give the same value for every key differ in the order of their pairs alone. -/
theorem perm_of_mapGet {entries' : List (κ × β)} (h : (entries.map (·.1)).Nodup) (h' : (entries'.map (·.1)).Nodup)
    (hget : ∀ k, mapGet entries k = mapGet entries' k) : entries.Perm entries' := by
  refine (List.perm_ext_iff_of_nodup h.of_map h'.of_map).2 fun e => ⟨fun he => ?_, fun he => ?_⟩
  · exact mem_of_mapGet ((hget e.1).symm.trans (mapGet_of_mem h he))
  · exact mem_of_mapGet ((hget e.1).trans (mapGet_of_mem h' he))

theorem nodup_mapSet (h : (entries.map (·.1)).Nodup) : ((mapSet entries k value).map (·.1)).Nodup := by
  rw [keys_mapSet]
  split_ifs with hk
  · exact h
  · exact h.append (List.nodup_singleton k) (by simpa using hk)

/-- The pairs of the keys that pass a test. -/
def mapOnly (p : κ → Bool) (entries : List (κ × β)) : List (κ × β) := entries.filter fun e => p e.1

theorem mapOnly_mapSet (p : κ → Bool) :
    mapOnly p (mapSet entries k value) =
      if p k then mapSet (mapOnly p entries) k value else mapOnly p entries := by
  have hany : p k = true → (mapOnly p entries).any (·.1 = k) = entries.any (·.1 = k) := by
    intro hp
    rw [mapOnly, List.any_filter]
    refine congrArg entries.any (funext fun e => ?_)
    by_cases he : e.1 = k
    · simp [he, hp]
    · simp [he]
  have hmap : mapOnly p (entries.map fun e => if e.1 = k then (k, value) else e) =
      (mapOnly p entries).map fun e => if e.1 = k then (k, value) else e := by
    rw [mapOnly, List.filter_map]
    refine congrArg _ (List.filter_congr fun e _ => ?_)
    by_cases he : e.1 = k
    · simp [he]
    · simp [he]
  unfold mapSet
  split_ifs with hin hp hp' hp hp'
  · exact hmap
  · exact absurd (hany hp ▸ hin) hp'
  · rw [hmap]
    refine (List.map_congr_left fun e he => ?_).trans (List.map_id _)
    have hne : e.1 ≠ k := fun heq => hp (heq ▸ (List.mem_filter.1 he).2)
    exact if_neg hne
  · exact absurd (hany hp ▸ hp') hin
  · rw [mapOnly, List.filter_append]
    simp [mapOnly, hp]
  · rw [mapOnly, List.filter_append]
    simp [mapOnly, hp]

/-- The map with the pairs of another, set one after the other. -/
def mapUpdate (entries pairs : List (κ × β)) : List (κ × β) :=
  pairs.foldl (fun entries e => mapSet entries e.1 e.2) entries

theorem nodup_mapUpdate {pairs : List (κ × β)} (h : (entries.map (·.1)).Nodup) :
    ((mapUpdate entries pairs).map (·.1)).Nodup := by
  induction pairs generalizing entries with
  | nil => exact h
  | cons e pairs ih => exact ih (nodup_mapSet h)

theorem mapUpdate_new {pairs : List (κ × β)} (h : ((entries ++ pairs).map (·.1)).Nodup) :
    mapUpdate entries pairs = entries ++ pairs := by
  induction pairs generalizing entries with
  | nil => exact (List.append_nil _).symm
  | cons e pairs ih =>
    have hnew : e.1 ∉ entries.map (·.1) := by
      rw [List.map_append, List.nodup_append] at h
      exact fun hmem => h.2.2 _ hmem _ (List.mem_cons_self ..) rfl
    have happend : entries ++ e :: pairs = (entries ++ [e]) ++ pairs := by simp
    show mapUpdate (mapSet entries e.1 e.2) pairs = _
    rw [mapSet_new hnew, happend]
    exact ih (happend ▸ h)

theorem mapUpdate_nil_iff {pairs : List (κ × β)} : mapUpdate [] pairs = pairs ↔ (pairs.map (·.1)).Nodup := by
  constructor
  · intro h
    have hnodup : ((mapUpdate [] pairs).map (·.1)).Nodup := nodup_mapUpdate List.nodup_nil
    rwa [h] at hnodup
  · intro h
    have hself : mapUpdate [] pairs = [] ++ pairs := mapUpdate_new h
    exact hself

theorem mapOnly_mapUpdate (p : κ → Bool) {pairs : List (κ × β)} :
    mapOnly p (mapUpdate entries pairs) = mapUpdate (mapOnly p entries) (mapOnly p pairs) := by
  induction pairs generalizing entries with
  | nil => rfl
  | cons e pairs ih =>
    show mapOnly p (mapUpdate (mapSet entries e.1 e.2) pairs) = _
    rw [ih, mapOnly_mapSet]
    by_cases hp : p e.1 = true
    · have hpairs : mapOnly p (e :: pairs) = e :: mapOnly p pairs := List.filter_cons_of_pos hp
      rw [if_pos hp, hpairs]
      rfl
    · have hpairs : mapOnly p (e :: pairs) = mapOnly p pairs := List.filter_cons_of_neg hp
      rw [if_neg hp, hpairs]

theorem mapGet_mapUpdate {pairs : List (κ × β)} (h : (pairs.map (·.1)).Nodup) :
    mapGet (mapUpdate entries pairs) k = (mapGet pairs k).or (mapGet entries k) := by
  induction pairs generalizing entries with
  | nil => rfl
  | cons e pairs ih =>
    rw [List.map_cons, List.nodup_cons] at h
    show mapGet (mapUpdate (mapSet entries e.1 e.2) pairs) k = _
    rw [ih h.2, mapGet_mapSet, mapGet_cons]
    by_cases hk : e.1 = k
    · have hnone := mapGet_eq_none.2 (hk ▸ h.1)
      rw [hnone, if_pos hk.symm, if_pos hk]
      rfl
    · rw [if_neg (Ne.symm hk), if_neg hk]

end Map

end Transform.Lib
