import Mathlib.Data.List.Nodup

/-!
# Lib.Relational — tables with foreign keys, and what a DELETE removes

A `Schema` gives of each row its primary key and its references, which either cascade or are set to NULL; a `Store` has no
key twice and no reference to a missing row.  `Store.delete` removes the rows chosen, and with them every row that a
cascading reference leads to one of them; the references to what is gone that do not cascade are cleared.

* `gone_iff`: what is removed within as many rounds as there are rows is `Gone`, the closure under cascading references.
* `mem_delete`, `mem_delete_self`: which rows are left, and which of them as they were.
* `delete_delete`: two deletions, one after the other, are one.
-/

namespace Transform.Lib

/-! ## Schemas and stores -/

/-- What becomes of a reference when its row is deleted. -/
inductive OnDelete
  | cascade
  | setNull
  deriving DecidableEq, Repr

/-- A reference that is not NULL. -/
structure Link (C K : Type) where
  column : C
  target : K
  onDelete : OnDelete

/-- Rows with a primary key and foreign keys. -/
structure Schema (R K C : Type) where
  key : R → K
  links : R → List (Link C K)
  /-- the row with those of the columns set to NULL whose reference does not cascade -/
  clear : R → (C → Bool) → R
  key_clear : ∀ r cs, key (clear r cs) = key r
  links_clear : ∀ r cs, links (clear r cs) = (links r).filter fun l => !(decide (l.onDelete = .setNull) && cs l.column)
  clear_clear : ∀ r cs cs', clear (clear r cs) cs' = clear r fun c => cs c || cs' c
  clear_none : ∀ r, clear r (fun _ => false) = r

variable {R K C : Type}

namespace Schema

variable [DecidableEq K] (S : Schema R K C) (rows : List R)

/-- The rows chosen and, within some rounds, those that cascade to them. -/
def gone (p : R → Bool) : ℕ → R → Bool
  | 0, r => p r
  | n + 1, r => p r || (S.links r).any fun l =>
      decide (l.onDelete = .cascade) && rows.any fun q => decide (S.key q = l.target) && gone p n q

inductive Gone (p : R → Bool) : R → Prop
  | chosen {r : R} (h : p r = true) : Gone p r
  | cascade {r q : R} {l : Link C K} (hl : l ∈ S.links r) (hc : l.onDelete = .cascade) (hq : q ∈ rows)
      (hk : S.key q = l.target) (h : Gone p q) : Gone p r

variable [DecidableEq C]

/-- The columns that are set to NULL, where the rows of `g` go. -/
def cleared (g : R → Bool) (r : R) (c : C) : Bool :=
  (S.links r).any fun l => decide (l.column = c) && decide (l.onDelete = .setNull) &&
    rows.any fun q => decide (S.key q = l.target) && g q

def unlink (g : R → Bool) (r : R) : R := S.clear r (S.cleared rows g r)

end Schema

/-- Rows under their keys, without a reference to a missing one. -/
structure Store (S : Schema R K C) where
  rows : List R
  keys : (rows.map S.key).Nodup
  sound : ∀ r ∈ rows, ∀ l ∈ S.links r, ∃ q ∈ rows, S.key q = l.target

theorem eq_of_key {S : Schema R K C} {db : Store S} {r r' : R} (hr : r ∈ db.rows) (hr' : r' ∈ db.rows)
    (h : S.key r = S.key r') : r = r' :=
  List.inj_on_of_nodup_map db.keys hr hr' h

theorem store_ext {S : Schema R K C} {db db' : Store S} (h : db.rows = db'.rows) : db = db' := by
  cases db
  cases db'
  subst h
  rfl

/-! ## The closure under cascading references -/

theorem gone_of_imp {S : Schema R K C} {rows : List R} {p q : R → Bool} {r : R} (h : ∀ r, p r = true → q r = true)
    (hg : S.Gone rows p r) : S.Gone rows q r := by
  induction hg with
  | chosen hp => exact .chosen (h _ hp)
  | cascade hl hc hq hk _ ih => exact .cascade hl hc hq hk ih

section Closure

variable [DecidableEq K] {S : Schema R K C} {rows : List R} {p : R → Bool} {r : R} {n m : ℕ}

theorem gone_succ : S.gone rows p (n + 1) r = true ↔ p r = true ∨
    ∃ l ∈ S.links r, l.onDelete = .cascade ∧ ∃ q ∈ rows, S.key q = l.target ∧ S.gone rows p n q = true := by
  simp [Schema.gone]

theorem gone_mono (h : S.gone rows p n r = true) : S.gone rows p (n + 1) r = true := by
  induction n generalizing r with
  | zero => exact gone_succ.2 (.inl h)
  | succ n ih =>
    rcases gone_succ.1 h with h | ⟨l, hl, hc, q, hq, hk, hg⟩
    · exact gone_succ.2 (.inl h)
    · exact gone_succ.2 (.inr ⟨l, hl, hc, q, hq, hk, ih hg⟩)

theorem gone_of_le (h : m ≤ n) (hg : S.gone rows p m r = true) : S.gone rows p n r = true := by
  induction h with
  | refl => exact hg
  | step _ ih => exact gone_mono ih

theorem countP_lt_of_mono {l : List R} {f g : R → Bool} (hmono : ∀ x ∈ l, f x = true → g x = true) {x : R} (hx : x ∈ l)
    (hg : g x = true) (hf : ¬ f x = true) : l.countP f < l.countP g := by
  obtain ⟨s, t, rfl⟩ := List.append_of_mem hx
  have hs : s.countP f ≤ s.countP g := List.countP_mono_left fun y hy => hmono y (by simp [hy])
  have ht : t.countP f ≤ t.countP g := List.countP_mono_left fun y hy => hmono y (by simp [hy])
  rw [List.countP_append, List.countP_append, List.countP_cons_of_pos hg, List.countP_cons_of_neg hf]
  omega

/-- Each round adds a row, or adds none from then on. -/
theorem gone_grows : ∀ n, n ≤ rows.countP (S.gone rows p n) ∨
    ∃ k, k < n ∧ ∀ q ∈ rows, S.gone rows p (k + 1) q = true → S.gone rows p k q = true
  | 0 => .inl (Nat.zero_le _)
  | n + 1 => by
    rcases gone_grows n with hle | ⟨k, hk, hclosed⟩
    · by_cases hclosed : ∀ q ∈ rows, S.gone rows p (n + 1) q = true → S.gone rows p n q = true
      · exact .inr ⟨n, Nat.lt_succ_self n, hclosed⟩
      · left
        push Not at hclosed
        obtain ⟨q, hq, hnew, hold⟩ := hclosed
        have hlt : rows.countP (S.gone rows p n) < rows.countP (S.gone rows p (n + 1)) :=
          countP_lt_of_mono (fun _ _ h => gone_mono h) hq hnew hold
        omega
    · exact .inr ⟨k, Nat.lt_succ_of_lt hk, hclosed⟩

/-- As many rounds as there are rows find all that go. -/
theorem gone_iff (hr : r ∈ rows) : S.gone rows p rows.length r = true ↔ S.Gone rows p r := by
  constructor
  · generalize rows.length = n
    clear hr
    intro h
    induction n generalizing r with
    | zero => exact .chosen h
    | succ n ih =>
      rcases gone_succ.1 h with h | ⟨l, hl, hc, q, hq, hk, hg⟩
      · exact .chosen h
      · exact .cascade hl hc hq hk (ih hg)
  · intro h
    obtain ⟨k, hk, hclosed⟩ : ∃ k, k ≤ rows.length ∧
        ∀ q ∈ rows, S.gone rows p (k + 1) q = true → S.gone rows p k q = true := by
      rcases @gone_grows _ _ _ _ S rows p (rows.length + 1) with hle | ⟨k, hk, hclosed⟩
      · have hlen : rows.countP (S.gone rows p (rows.length + 1)) ≤ rows.length := List.countP_le_length
        omega
      · exact ⟨k, Nat.le_of_lt_succ hk, hclosed⟩
    have hround : S.gone rows p k r = true := by
      induction h with
      | chosen h => exact gone_of_le (Nat.zero_le k) h
      | cascade hl hc hq hkey _ ih => exact hclosed _ hr (gone_succ.2 (.inr ⟨_, hl, hc, _, hq, hkey, ih hq⟩))
    exact gone_of_le hk hround

end Closure

/-! ## What a row keeps of its references -/

section Unlink

variable [DecidableEq K] [DecidableEq C] {S : Schema R K C} {rows : List R} {g : R → Bool} {r : R}

theorem cleared_iff {c : C} : S.cleared rows g r c = true ↔
    ∃ l ∈ S.links r, l.column = c ∧ l.onDelete = .setNull ∧ ∃ q ∈ rows, S.key q = l.target ∧ g q = true := by
  simp [Schema.cleared, and_assoc]

theorem key_unlink : S.key (S.unlink rows g r) = S.key r := S.key_clear _ _

theorem mem_links_unlink {l : Link C K} : l ∈ S.links (S.unlink rows g r) ↔
    l ∈ S.links r ∧ ¬ (l.onDelete = .setNull ∧ S.cleared rows g r l.column = true) := by
  unfold Schema.unlink
  rw [S.links_clear, List.mem_filter]
  refine and_congr_right fun _ => ?_
  rw [Bool.not_eq_true', Bool.and_eq_false_iff, decide_eq_false_iff_not, not_and_or, Bool.not_eq_true]

/-- A reference that is left leads to no row that goes. -/
theorem not_gone_of_unlink {l : Link C K} (h : l ∈ S.links (S.unlink rows g r)) (hn : l.onDelete = .setNull) {q : R}
    (hq : q ∈ rows) (hk : S.key q = l.target) : ¬ g q = true := by
  intro hg
  obtain ⟨hl, hkept⟩ := mem_links_unlink.1 h
  exact hkept ⟨hn, cleared_iff.2 ⟨l, hl, rfl, hn, q, hq, hk, hg⟩⟩

theorem unlink_eq_iff : S.unlink rows g r = r ↔
    ∀ l ∈ S.links r, l.onDelete = .setNull → ∀ q ∈ rows, S.key q = l.target → ¬ g q = true := by
  constructor
  · intro h l hl hn q hq hk
    rw [← h] at hl
    exact not_gone_of_unlink hl hn hq hk
  · intro h
    have hnone : S.cleared rows g r = fun _ => false := by
      funext c
      rw [Bool.eq_false_iff]
      intro hc
      obtain ⟨l, hl, -, hn, q, hq, hk, hg⟩ := cleared_iff.1 hc
      exact h l hl hn q hq hk hg
    unfold Schema.unlink
    rw [hnone, S.clear_none]

end Unlink

/-! ## Deletions -/

section Delete

def Store.removed [DecidableEq K] {S : Schema R K C} (db : Store S) (p : R → Bool) (r : R) : Bool :=
  S.gone db.rows p db.rows.length r

theorem removed_iff [DecidableEq K] {S : Schema R K C} {db : Store S} {p : R → Bool} {r : R} (hr : r ∈ db.rows) :
    db.removed p r = true ↔ S.Gone db.rows p r := gone_iff hr

variable [DecidableEq K] [DecidableEq C] {S : Schema R K C}

namespace Store

variable (db : Store S) (p : R → Bool)

/-- The rows that are left, their references to what is gone set to NULL. -/
def left : List R := (db.rows.filter fun r => !db.removed p r).map (S.unlink db.rows (db.removed p))

theorem mem_left {r' : R} : r' ∈ db.left p ↔
    ∃ r ∈ db.rows, ¬ S.Gone db.rows p r ∧ S.unlink db.rows (db.removed p) r = r' := by
  unfold left
  rw [List.mem_map]
  constructor
  · rintro ⟨r, hr, rfl⟩
    obtain ⟨hmem, hleft⟩ := List.mem_filter.1 hr
    refine ⟨r, hmem, fun hg => ?_, rfl⟩
    rw [(removed_iff hmem).2 hg] at hleft
    cases hleft
  · rintro ⟨r, hr, hg, rfl⟩
    refine ⟨r, List.mem_filter.2 ⟨hr, ?_⟩, rfl⟩
    rw [Bool.not_eq_true', Bool.eq_false_iff]
    exact fun h => hg ((removed_iff hr).1 h)

theorem left_keys : ((db.left p).map S.key).Nodup := by
  unfold left
  rw [List.map_map]
  have hkey : S.key ∘ S.unlink db.rows (db.removed p) = S.key := funext fun r => key_unlink
  rw [hkey]
  exact db.keys.sublist (List.filter_sublist.map _)

theorem left_sound : ∀ r ∈ db.left p, ∀ l ∈ S.links r, ∃ q ∈ db.left p, S.key q = l.target := by
  intro r' hr' l hl
  obtain ⟨r, hr, hgone, rfl⟩ := (db.mem_left p).1 hr'
  obtain ⟨q, hq, hk⟩ := db.sound r hr l (mem_links_unlink.1 hl).1
  refine ⟨_, (db.mem_left p).2 ⟨q, hq, fun hg => ?_, rfl⟩, key_unlink.trans hk⟩
  rcases hd : l.onDelete with _ | _
  · exact hgone (.cascade (mem_links_unlink.1 hl).1 hd hq hk hg)
  · exact not_gone_of_unlink hl hd hq hk ((removed_iff hq).2 hg)

/-- `DELETE` of the rows chosen. -/
def delete : Store S where
  rows := db.left p
  keys := db.left_keys p
  sound := db.left_sound p

end Store

variable {db : Store S} {p q : R → Bool} {r r' : R}

theorem mem_delete : r' ∈ (db.delete p).rows ↔
    ∃ r ∈ db.rows, ¬ S.Gone db.rows p r ∧ S.unlink db.rows (db.removed p) r = r' := db.mem_left p

/-- A row is left as it was exactly if it does not go, and no reference of it is cleared. -/
theorem mem_delete_self (hr : r ∈ db.rows) : r ∈ (db.delete p).rows ↔ ¬ S.Gone db.rows p r ∧
    ∀ l ∈ S.links r, l.onDelete = .setNull → ∀ q ∈ db.rows, S.key q = l.target → ¬ S.Gone db.rows p q := by
  have hunlink : S.unlink db.rows (db.removed p) r = r ↔
      ∀ l ∈ S.links r, l.onDelete = .setNull → ∀ q ∈ db.rows, S.key q = l.target → ¬ S.Gone db.rows p q := by
    rw [unlink_eq_iff]
    refine forall_congr' fun l => forall_congr' fun _ => forall_congr' fun _ => forall_congr' fun q =>
      forall_congr' fun hq => forall_congr' fun _ => not_congr (removed_iff hq)
  rw [← hunlink, mem_delete]
  constructor
  · rintro ⟨r₀, hr₀, hgone, heq⟩
    have hsame : r₀ = r := eq_of_key hr₀ hr (by rw [← heq, key_unlink])
    subst hsame
    exact ⟨hgone, heq⟩
  · rintro ⟨hgone, heq⟩
    exact ⟨r, hr, hgone, heq⟩

theorem key_left (hr : r ∈ db.rows) : (∃ r' ∈ (db.delete p).rows, S.key r' = S.key r) ↔ ¬ S.Gone db.rows p r := by
  constructor
  · rintro ⟨r', hr', hk⟩
    obtain ⟨r₀, hr₀, hgone, rfl⟩ := mem_delete.1 hr'
    have hsame : r₀ = r := eq_of_key hr₀ hr (key_unlink.symm.trans hk)
    subst hsame
    exact hgone
  · intro hgone
    exact ⟨_, mem_delete.2 ⟨r, hr, hgone, rfl⟩, key_unlink⟩

/-- The next choice does not look at references that may be cleared. -/
def Ignores (S : Schema R K C) (q : R → Bool) : Prop := ∀ r cs, q (S.clear r cs) = q r

theorem gone_left (hq : Ignores S q) (hr : r ∈ db.rows) (hleft : ¬ S.Gone db.rows p r) :
    S.Gone (db.delete p).rows q (S.unlink db.rows (db.removed p) r) ↔ S.Gone db.rows (fun r => p r || q r) r := by
  constructor
  · generalize hu : S.unlink db.rows (db.removed p) r = u
    intro h
    induction h generalizing r with
    | chosen h =>
      refine .chosen ?_
      rw [← hu, Schema.unlink, hq] at h
      rw [h, Bool.or_true]
    | @cascade u t l hl hc ht hk _ ih =>
      subst hu
      obtain ⟨t₀, ht₀, hleft₀, rfl⟩ := mem_delete.1 ht
      exact .cascade (mem_links_unlink.1 hl).1 hc ht₀ (key_unlink.symm.trans hk) (ih ht₀ hleft₀ rfl)
  · intro h
    induction h with
    | @chosen r h =>
      rcases Bool.or_eq_true_iff.1 h with hp | hqr
      · exact absurd (.chosen hp) hleft
      · refine .chosen ?_
        rw [Schema.unlink, hq]
        exact hqr
    | @cascade r t l hl hc ht hk _ ih =>
      have hleft' : ¬ S.Gone db.rows p t := fun hg => hleft (.cascade hl hc ht hk hg)
      have hkept : l ∈ S.links (S.unlink db.rows (db.removed p) r) := mem_links_unlink.2 ⟨hl, fun h => by
        rw [hc] at h
        cases h.1⟩
      exact .cascade hkept hc (mem_delete.2 ⟨t, ht, hleft', rfl⟩) (key_unlink.trans hk) (ih ht hleft')

/-- A row that both deletions leave has the references cleared that one deletion clears. -/
theorem unlink_unlink (hq : Ignores S q) (r : R) :
    S.unlink (db.delete p).rows ((db.delete p).removed q) (S.unlink db.rows (db.removed p) r) =
      S.unlink db.rows (db.removed fun r => p r || q r) r := by
  have hcleared : ∀ c, (S.cleared db.rows (db.removed p) r c ||
      S.cleared (db.delete p).rows ((db.delete p).removed q) (S.unlink db.rows (db.removed p) r) c) =
        S.cleared db.rows (db.removed fun r => p r || q r) r c := by
    intro c
    rw [Bool.eq_iff_iff, Bool.or_eq_true_iff, cleared_iff, cleared_iff, cleared_iff]
    constructor
    · rintro (⟨l, hl, hc, hn, t, ht, hk, hg⟩ | ⟨l, hl, hc, hn, t, ht, hk, hg⟩)
      · refine ⟨l, hl, hc, hn, t, ht, hk, (removed_iff ht).2 ?_⟩
        exact gone_of_imp (fun r hp => by rw [hp, Bool.true_or]) ((removed_iff ht).1 hg)
      · obtain ⟨t₀, ht₀, hleft, rfl⟩ := mem_delete.1 ht
        refine ⟨l, (mem_links_unlink.1 hl).1, hc, hn, t₀, ht₀, key_unlink.symm.trans hk, (removed_iff ht₀).2 ?_⟩
        exact (gone_left hq ht₀ hleft).1 ((removed_iff ht).1 hg)
    · rintro ⟨l, hl, hc, hn, t, ht, hk, hg⟩
      by_cases hgone : S.Gone db.rows p t
      · exact .inl ⟨l, hl, hc, hn, t, ht, hk, (removed_iff ht).2 hgone⟩
      · by_cases hcut : S.cleared db.rows (db.removed p) r l.column = true
        · rw [hc] at hcut
          exact .inl (cleared_iff.1 hcut)
        · have ht' := mem_delete.2 ⟨t, ht, hgone, rfl⟩
          refine .inr ⟨l, mem_links_unlink.2 ⟨hl, fun h => hcut h.2⟩, hc, hn, _, ht', key_unlink.trans hk, ?_⟩
          exact (removed_iff ht').2 ((gone_left hq ht hgone).2 ((removed_iff ht).1 hg))
  have hclear : S.unlink (db.delete p).rows ((db.delete p).removed q) (S.unlink db.rows (db.removed p) r) =
      S.clear r fun c => S.cleared db.rows (db.removed p) r c ||
        S.cleared (db.delete p).rows ((db.delete p).removed q) (S.unlink db.rows (db.removed p) r) c :=
    S.clear_clear _ _ _
  rw [hclear, Schema.unlink]
  exact congrArg _ (funext hcleared)

/-- **Two deletions**, one after the other, delete what one deletion of both choices does. -/
theorem delete_delete (hq : Ignores S q) : (db.delete p).delete q = db.delete fun r => p r || q r := by
  refine store_ext ?_
  show (((db.rows.filter _).map _).filter _).map _ = (db.rows.filter _).map _
  rw [List.filter_map, List.map_map, List.filter_filter]
  have hfilter : db.rows.filter (fun r => ((fun r => !(db.delete p).removed q r) ∘ S.unlink db.rows (db.removed p)) r &&
      !db.removed p r) = db.rows.filter fun r => !db.removed (fun r => p r || q r) r := by
    refine List.filter_congr fun r hr => ?_
    rw [Bool.eq_iff_iff]
    simp only [Function.comp, Bool.and_eq_true, Bool.not_eq_true', Bool.eq_false_iff, ne_eq]
    rw [removed_iff hr, removed_iff hr]
    constructor
    · rintro ⟨hnew, hold⟩ hg
      exact hnew ((removed_iff (mem_delete.2 ⟨r, hr, hold, rfl⟩)).2 ((gone_left hq hr hold).2 hg))
    · intro h
      have hold : ¬ S.Gone db.rows p r := fun hg => h (gone_of_imp (fun r hp => by rw [hp, Bool.true_or]) hg)
      exact ⟨fun hg => h ((gone_left hq hr hold).1 ((removed_iff (mem_delete.2 ⟨r, hr, hold, rfl⟩)).1 hg)), hold⟩
  rw [hfilter]
  exact List.map_congr_left fun r _ => unlink_unlink hq r

/-- Any number of deletions, one after the other, are one. -/
theorem delete_foldl {qs : List (R → Bool)} (hqs : ∀ q ∈ qs, Ignores S q) :
    qs.foldl Store.delete (db.delete p) = db.delete fun r => p r || qs.any fun q => q r := by
  induction qs generalizing p with
  | nil =>
    simp only [List.foldl_nil, List.any_nil, Bool.or_false]
  | cons q qs ih =>
    rw [List.foldl_cons, delete_delete (hqs q (by simp)), ih fun q' h => hqs q' (List.mem_cons_of_mem _ h)]
    simp only [List.any_cons, Bool.or_assoc]

end Delete

end Transform.Lib
