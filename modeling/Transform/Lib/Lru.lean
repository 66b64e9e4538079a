import Mathlib.Data.List.Infix
import Transform.Lib.Keyed

/-!
# Lib.Lru — caches that forget what has not been used for longest

The entries of a cache stand in the order of their last uses.  A value that is set goes to the end, and of the entries the
longest suffix that is allowed is kept.  After any history the entries are in the order of their last uses and have the
values that were set last (`recent_lruRun`).
-/

namespace Transform.Lib

/-! ## Suffixes -/

section Suffixes

variable {α : Type} {p q : List α → Bool} {l s : List α} {a b : α}

/-- The longest suffix that is allowed, or nothing. -/
def longestSuffix (p : List α → Bool) : List α → List α
  | [] => []
  | a :: l => if p (a :: l) then a :: l else longestSuffix p l

/-- `s` is allowed, and every suffix that is allowed is one of `s`. -/
structure IsLongestSuffix (p : List α → Prop) (l s : List α) : Prop where
  suffix : s <:+ l
  allowed : p s
  longest : ∀ t, t <:+ l → p t → t <:+ s

theorem longestSuffix_suffix : longestSuffix p l <:+ l := by
  induction l with
  | nil => exact List.suffix_refl []
  | cons a l ih =>
    rw [longestSuffix]
    by_cases h : p (a :: l) = true
    · rw [if_pos h]
    · rw [if_neg h]
      exact ih.trans (List.suffix_cons a l)

theorem isLongestSuffix_longestSuffix (h : ∃ t, t <:+ l ∧ p t = true) :
    IsLongestSuffix (fun t => p t = true) l (longestSuffix p l) := by
  refine ⟨longestSuffix_suffix, ?_, ?_⟩
  · obtain ⟨t, ht, hp⟩ := h
    induction l with
    | nil => rwa [List.suffix_nil.1 ht] at hp
    | cons a l ih =>
      rw [longestSuffix]
      by_cases hall : p (a :: l) = true
      · rwa [if_pos hall]
      · rw [if_neg hall]
        rcases List.suffix_cons_iff.1 ht with rfl | hrest
        · exact absurd hp hall
        · exact ih hrest
  · clear h
    intro t ht hp
    induction l with
    | nil => exact ht
    | cons a l ih =>
      rw [longestSuffix]
      by_cases hall : p (a :: l) = true
      · rwa [if_pos hall]
      · rw [if_neg hall]
        rcases List.suffix_cons_iff.1 ht with rfl | hrest
        · exact absurd hp hall
        · exact ih hrest

theorem longestSuffix_eq_self (h : p l = true) : longestSuffix p l = l := by
  cases l with
  | nil => rfl
  | cons a l => exact if_pos h

/-- Two bounds one after the other, where the first holds of the suffixes of what it holds of. -/
theorem longestSuffix_longestSuffix (hp : ∀ a l, p (a :: l) = true → p l = true) :
    longestSuffix q (longestSuffix p l) = longestSuffix (fun t => p t && q t) l := by
  induction l with
  | nil => rfl
  | cons a l ih =>
    rw [longestSuffix, longestSuffix]
    by_cases hall : p (a :: l) = true
    · rw [longestSuffix_eq_self (hp a l hall)] at ih
      rw [if_pos hall, longestSuffix, hall, Bool.true_and, ih]
    · rw [if_neg hall, if_neg (fun hand => hall (Bool.and_eq_true_iff.1 hand).1)]
      exact ih

theorem rel_of_suffix {r : α → α → Prop} (hl : l.Pairwise r) (hs : s <:+ l) (ha : a ∈ s) (hb : b ∈ l) (hout : b ∉ s) :
    r b a := by
  obtain ⟨front, rfl⟩ := hs
  exact (List.pairwise_append.1 hl).2.2 b ((List.mem_append.1 hb).resolve_right hout) a ha

end Suffixes

/-! ## Histories -/

section Histories

variable {κ ν : Type} [DecidableEq κ]

inductive CacheOp (κ ν : Type)
  | set (key : κ) (value : ν)
  | get (key : κ)
  | drop (key : κ)
  | clear

def touch (entries : List (κ × ν)) (key : κ) (value : ν) : List (κ × ν) := entries.eraseP (·.1 = key) ++ [(key, value)]

def lruStep (allowed : List (κ × ν) → Bool) (entries : List (κ × ν)) : CacheOp κ ν → List (κ × ν)
  | .set key value => longestSuffix allowed (touch entries key value)
  | .get key =>
    match mapGet entries key with
    | some value => touch entries key value
    | none => entries
  | .drop key => entries.eraseP (·.1 = key)
  | .clear => []

/-- The entries after a history. -/
def lruRun (allowed : List (κ × ν) → Bool) (ops : List (CacheOp κ ν)) : List (κ × ν) := ops.foldl (lruStep allowed) []

/-- The value that was set last for a key, unless the key was dropped since. -/
def lastSet (key : κ) (ops : List (CacheOp κ ν)) : Option ν :=
  ops.foldl (fun last op => match op with
    | .set key' value => if key' = key then some value else last
    | .get _ => last
    | .drop key' => if key' = key then none else last
    | .clear => none) none

def CacheOp.uses (key : κ) : CacheOp κ ν → Bool
  | .set key' _ => key' = key
  | .get key' => key' = key
  | _ => false

/-- The number of the last operation that used a key, counted from one; zero for a key that was not used. -/
def lastUse (ops : List (CacheOp κ ν)) (key : κ) : ℕ := ops.length - ops.reverse.findIdx (·.uses key)

end Histories

/-! ## What a history leaves -/

section Recent

variable {κ ν : Type} [DecidableEq κ] {allowed : List (κ × ν) → Bool} {entries entries' : List (κ × ν)}
  {ops : List (CacheOp κ ν)} {op : CacheOp κ ν} {key key' : κ} {value : ν} {e : κ × ν}

theorem lruRun_append : lruRun allowed (ops ++ [op]) = lruStep allowed (lruRun allowed ops) op := by
  rw [lruRun, List.foldl_append]
  rfl

theorem lastUse_append : lastUse (ops ++ [op]) key = if op.uses key then ops.length + 1 else lastUse ops key := by
  unfold lastUse
  rw [List.reverse_append, List.reverse_singleton, List.singleton_append, List.findIdx_cons, List.length_append,
    List.length_singleton]
  by_cases h : op.uses key = true
  · rw [if_pos h, h]
    rfl
  · rw [if_neg h, Bool.eq_false_iff.2 h]
    exact Nat.add_sub_add_right _ _ _

theorem lastUse_le : lastUse ops key ≤ ops.length := Nat.sub_le _ _

theorem lastSet_set : lastSet key (ops ++ [.set key' value]) = if key' = key then some value else lastSet key ops := by
  rw [lastSet, List.foldl_append]
  rfl

theorem lastSet_get : lastSet key (ops ++ [.get key']) = lastSet key ops := by
  rw [lastSet, List.foldl_append]
  rfl

theorem lastSet_drop : lastSet key (ops ++ [.drop key']) = if key' = key then none else lastSet key ops := by
  rw [lastSet, List.foldl_append]
  rfl

/-- The entries are in the order of their last uses, with the values that were set last. -/
structure Recent (ops : List (CacheOp κ ν)) (entries : List (κ × ν)) : Prop where
  ordered : entries.Pairwise fun e e' => lastUse ops e.1 < lastUse ops e'.1
  live : ∀ e ∈ entries, lastSet e.1 ops = some e.2

theorem Recent.nodup (h : Recent ops entries) : (entries.map (·.1)).Nodup :=
  List.pairwise_map.2 (h.ordered.imp fun hlt heq => absurd hlt (by rw [heq]; exact Nat.lt_irrefl _))

theorem Recent.sublist (h : Recent ops entries) (hsub : entries'.Sublist entries) : Recent ops entries' :=
  ⟨h.ordered.sublist hsub, fun e he => h.live e (hsub.subset he)⟩

theorem ne_of_mem_eraseP (h : (entries.map (·.1)).Nodup) (he : e ∈ entries.eraseP (·.1 = key)) : e.1 ≠ key := by
  rintro rfl
  exact mapGet_eq_none.1 (mapGet_eraseP_self h) (List.mem_map_of_mem he)

theorem Recent.touched (h : Recent ops entries) (huses : ∀ key', op.uses key' = decide (key = key'))
    (hset : lastSet key (ops ++ [op]) = some value)
    (hothers : ∀ key', key' ≠ key → lastSet key' (ops ++ [op]) = lastSet key' ops) :
    Recent (ops ++ [op]) (touch entries key value) := by
  have hold : ∀ e ∈ entries.eraseP (·.1 = key), e ∈ entries ∧ e.1 ≠ key ∧ lastUse (ops ++ [op]) e.1 = lastUse ops e.1 := by
    intro e he
    have hne := ne_of_mem_eraseP h.nodup he
    refine ⟨List.mem_of_mem_eraseP he, hne, ?_⟩
    rw [lastUse_append, huses, if_neg (by rw [decide_eq_true_iff]; exact hne.symm)]
  have hlast : lastUse (ops ++ [op]) key = ops.length + 1 := by
    rw [lastUse_append, huses, if_pos (decide_eq_true rfl)]
  constructor
  · refine List.pairwise_append.2 ⟨?_, List.pairwise_singleton _ _, ?_⟩
    · refine (h.ordered.sublist (List.eraseP_sublist)).imp_of_mem fun he he' hlt => ?_
      rwa [(hold _ he).2.2, (hold _ he').2.2]
    · intro e he e' he'
      rw [List.mem_singleton.1 he', hlast, (hold e he).2.2]
      exact Nat.lt_succ_of_le lastUse_le
  · intro e he
    rcases List.mem_append.1 he with he | he
    · rw [hothers _ (hold e he).2.1]
      exact h.live e (hold e he).1
    · rw [List.mem_singleton.1 he]
      exact hset

theorem Recent.set (h : Recent ops entries) : Recent (ops ++ [.set key value]) (touch entries key value) := by
  refine h.touched (fun _ => rfl) ?_ fun key' hne => ?_
  · rw [lastSet_set, if_pos rfl]
  · rw [lastSet_set, if_neg hne.symm]

theorem recent_lruStep (h : Recent ops entries) : Recent (ops ++ [op]) (lruStep allowed entries op) := by
  have hunused : (∀ key, op.uses key = false) → ∀ key, lastUse (ops ++ [op]) key = lastUse ops key := by
    intro hop key
    rw [lastUse_append, hop, if_neg Bool.false_ne_true]
  cases op with
  | set key value => exact h.set.sublist longestSuffix_suffix.sublist
  | get key =>
    rw [lruStep]
    cases hget : mapGet entries key with
    | some value =>
      refine h.touched (fun _ => rfl) ?_ fun _ _ => lastSet_get
      rw [lastSet_get]
      exact h.live _ (mem_of_mapGet hget)
    | none =>
      have hkey : ∀ e ∈ entries, lastUse (ops ++ [.get key]) e.1 = lastUse ops e.1 := by
        intro e he
        rw [lastUse_append, if_neg]
        intro huse
        exact mapGet_eq_none.1 hget (List.mem_map.2 ⟨e, he, (of_decide_eq_true huse).symm⟩)
      refine ⟨h.ordered.imp_of_mem fun he he' hlt => ?_, fun e he => ?_⟩
      · rwa [hkey _ he, hkey _ he']
      · rw [lastSet_get]
        exact h.live e he
  | drop key =>
    have hsub : Recent ops (entries.eraseP (·.1 = key)) := h.sublist List.eraseP_sublist
    refine ⟨hsub.ordered.imp fun hlt => ?_, fun e he => ?_⟩
    · rwa [hunused fun _ => rfl, hunused fun _ => rfl]
    · rw [lastSet_drop, if_neg (ne_of_mem_eraseP h.nodup he).symm]
      exact hsub.live e he
  | clear => exact ⟨List.Pairwise.nil, nofun⟩

/-- **Every history** leaves the entries in the order of their last uses, with the values that were set last. -/
theorem recent_lruRun (ops : List (CacheOp κ ν)) : Recent ops (lruRun allowed ops) := by
  induction ops using List.reverseRecOn with
  | nil => exact ⟨List.Pairwise.nil, nofun⟩
  | append_singleton ops op ih =>
    rw [lruRun_append]
    exact recent_lruStep ih

theorem lastUse_lt_of_evicted {kept evicted : κ × ν} (hkept : kept ∈ lruRun allowed (ops ++ [.set key value]))
    (hevicted : evicted ∈ lruRun allowed ops) (hne : evicted.1 ≠ key)
    (hout : evicted ∉ lruRun allowed (ops ++ [.set key value])) :
    lastUse (ops ++ [.set key value]) evicted.1 < lastUse (ops ++ [.set key value]) kept.1 := by
  rw [lruRun_append] at hkept hout
  have hthere : evicted ∈ touch (lruRun allowed ops) key value :=
    List.mem_append_left _ ((List.mem_eraseP_of_neg (by simpa using hne)).2 hevicted)
  have hrecent : Recent (ops ++ [.set key value]) (touch (lruRun allowed ops) key value) := (recent_lruRun ops).set
  have hlt := rel_of_suffix hrecent.ordered longestSuffix_suffix hkept hthere hout
  exact hlt

theorem evicted_of_less_recent {earlier later : κ × ν} (hearlier : earlier.1 ≠ key) (hthere : later ∈ lruRun allowed ops)
    (hlater : later.1 ≠ key) (hlt : lastUse ops earlier.1 < lastUse ops later.1)
    (hout : later ∉ lruRun allowed (ops ++ [.set key value])) : earlier ∉ lruRun allowed (ops ++ [.set key value]) := by
  have hsame : ∀ key', key' ≠ key → lastUse (ops ++ [.set key value]) key' = lastUse ops key' := by
    intro key' hne
    rw [lastUse_append, if_neg]
    exact fun huse => hne (of_decide_eq_true huse).symm
  intro hkept
  have hbefore := lastUse_lt_of_evicted hkept hthere hlater hout
  rw [hsame _ hlater, hsame _ hearlier] at hbefore
  exact Nat.lt_asymm hlt hbefore

theorem touch_perm (h : mapGet entries key = some value) : (touch entries key value).Perm entries := by
  obtain ⟨before, after, rfl, -, herase⟩ := mapGet_split h
  rw [touch, herase, List.append_assoc]
  exact (List.perm_append_singleton _ _).append_left before

/-- What holds of no entries and after every set, and of fewer entries and in any order, holds after every history. -/
theorem lruRun_of {P : List (κ × ν) → Prop} (hnil : P [])
    (hset : ∀ entries key value, P (longestSuffix allowed (touch entries key value)))
    (hperm : ∀ l l' : List (κ × ν), l'.Perm l → P l → P l') (hsub : ∀ l l' : List (κ × ν), l'.Sublist l → P l → P l')
    (ops : List (CacheOp κ ν)) : P (lruRun allowed ops) := by
  induction ops using List.reverseRecOn with
  | nil => exact hnil
  | append_singleton ops op ih =>
    rw [lruRun_append]
    cases op with
    | set key value => exact hset _ key value
    | get key =>
      rw [lruStep]
      cases hget : mapGet (lruRun allowed ops) key with
      | some value => exact hperm _ _ (touch_perm hget) ih
      | none => exact ih
    | drop key => exact hsub _ _ List.eraseP_sublist ih
    | clear => exact hnil

end Recent

end Transform.Lib
