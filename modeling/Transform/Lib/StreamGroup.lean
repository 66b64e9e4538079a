import Mathlib.Data.List.Basic
import Mathlib.Data.List.Infix
import Mathlib.Logic.Function.Basic

/-!
# Lib.StreamGroup — an append-only stream, its consumer group, and a bounded stream

`Group` is a stream that is only appended to, with the one consumer group that reads it: the entries before
`delivered` have been handed out, the `pending` ones of them not acknowledged.  Who owns a pending entry and how long
it has been idle is left open.  `Trimmed` is a stream that is trimmed from the front.
-/

namespace Transform.Lib

variable {F D : Type}

/-! ## A consumer group -/

section Group

/-- The id of the `n`-th entry of a stream: a `ms-seq` id without its clock. -/
def entryId (n : ℕ) : String := "0-" ++ n.repr

theorem entryId_injective : Function.Injective entryId := by
  intro m n h
  have hchars := congrArg String.toList h
  simp only [entryId, String.toList_append, List.append_cancel_left_eq, Nat.toList_repr] at hchars
  have hnum := congrArg (fun digits => Nat.ofDigitChars 10 digits 0) hchars
  simpa [Nat.ofDigitChars_toDigits] using hnum

structure Group (F : Type) where
  entries : List F
  delivered : ℕ
  pending : List ℕ
  delivered_le : delivered ≤ entries.length
  pending_lt : ∀ n ∈ pending, n < delivered

namespace Group

def empty : Group F := ⟨[], 0, [], Nat.le_refl _, fun _ h => by cases h⟩

variable (g : Group F)

/-- Append an entry. -/
def append (fields : F) : Group F where
  entries := g.entries ++ [fields]
  delivered := g.delivered
  pending := g.pending
  delivered_le := by
    have h := g.delivered_le
    simp only [List.length_append]
    omega
  pending_lt := g.pending_lt

/-- The next entry the group is handed, with its id. -/
def next : Option (String × F) := g.entries[g.delivered]?.map fun fields => (entryId g.delivered, fields)

/-- Hand out the next entry, if there is one. -/
def deliver : Group F :=
  if h : g.delivered < g.entries.length then {
    entries := g.entries
    delivered := g.delivered + 1
    pending := g.delivered :: g.pending
    delivered_le := h
    pending_lt := by
      intro n hn
      rcases List.mem_cons.1 hn with rfl | hn
      · omega
      · have := g.pending_lt n hn
        omega }
  else g

def ack (id : String) : Group F where
  entries := g.entries
  delivered := g.delivered
  pending := g.pending.filter fun n => entryId n ≠ id
  delivered_le := g.delivered_le
  pending_lt n hn := g.pending_lt n (List.mem_filter.1 hn).1

variable {g}

@[simp] theorem append_entries (fields : F) : (g.append fields).entries = g.entries ++ [fields] := rfl
@[simp] theorem append_delivered (fields : F) : (g.append fields).delivered = g.delivered := rfl
@[simp] theorem append_pending (fields : F) : (g.append fields).pending = g.pending := rfl
@[simp] theorem ack_entries (id : String) : (g.ack id).entries = g.entries := rfl

theorem mem_ack {id : String} {n : ℕ} : n ∈ (g.ack id).pending ↔ n ∈ g.pending ∧ entryId n ≠ id := by
  simp [ack]

@[simp] theorem deliver_entries : g.deliver.entries = g.entries := by
  unfold deliver
  split <;> rfl

theorem le_deliver : g.delivered ≤ g.deliver.delivered := by
  unfold deliver
  split
  · exact Nat.le_succ _
  · exact Nat.le_refl _

theorem mem_deliver {n : ℕ} : n ∈ g.deliver.pending ↔
    n ∈ g.pending ∨ (n = g.delivered ∧ g.delivered < g.entries.length) := by
  unfold deliver
  split
  · rename_i h
    simp only [List.mem_cons, h, and_true]
    exact or_comm
  · rename_i h
    simp [h]

theorem next_some {id : String} {fields : F} (h : g.next = some (id, fields)) :
    id = entryId g.delivered ∧ g.entries[g.delivered]? = some fields ∧ g.delivered < g.deliver.delivered := by
  unfold next at h
  obtain ⟨fields', hf, he⟩ := Option.map_eq_some_iff.1 h
  cases he
  refine ⟨rfl, hf, ?_⟩
  obtain ⟨hlt, -⟩ := List.getElem?_eq_some_iff.1 hf
  unfold deliver
  rw [dif_pos hlt]
  exact Nat.lt_succ_self _

end Group

end Group

/-! ## A bounded stream -/

section Trimmed

/-- Everything ever appended, and how much of its front has been evicted. -/
structure Trimmed (D : Type) where
  log : List D := []
  evicted : ℕ := 0

namespace Trimmed

/-- What the stream holds. -/
def content (t : Trimmed D) : List D := t.log.drop t.evicted

/-- What has been evicted. -/
def dropped (t : Trimmed D) : List D := t.log.take t.evicted

/-- Append, then evict the front down to `maxlen` and whatever an approximate trimming leaves beside. -/
def push (maxlen : ℕ) (slack : ℕ → ℕ) (t : Trimmed D) (d : D) : Trimmed D where
  log := t.log ++ [d]
  evicted := max t.evicted (t.log.length + 1 - (maxlen + slack (t.log.length + 1)))

variable {t : Trimmed D}

/-- What was appended is held until it is evicted. -/
theorem mem_log {d : D} : d ∈ t.log ↔ d ∈ t.dropped ∨ d ∈ t.content := by
  rw [dropped, content, ← List.mem_append, List.take_append_drop]

@[simp] theorem push_log (maxlen : ℕ) (slack : ℕ → ℕ) (d : D) : (t.push maxlen slack d).log = t.log ++ [d] := rfl

theorem evicted_push (maxlen : ℕ) (slack : ℕ → ℕ) (d : D) : t.evicted ≤ (t.push maxlen slack d).evicted :=
  Nat.le_max_left _ _

/-- An entry keeps its place. -/
theorem getElem?_push {maxlen : ℕ} {slack : ℕ → ℕ} {d e : D} {n : ℕ} (h : t.log[n]? = some e) :
    (t.push maxlen slack d).log[n]? = some e := by
  obtain ⟨hlt, -⟩ := List.getElem?_eq_some_iff.1 h
  rw [push_log, List.getElem?_append_left hlt, h]

/-! ### Reading on from a cursor -/

/-- Everything ever appended, with its ids. -/
def numbered (t : Trimmed D) : List (String × D) := t.log.mapIdx fun n d => (entryId n, d)

/-- How many entries a cursor has passed: those up to the entry with its id. -/
def passed (t : Trimmed D) (cursor : String) : ℕ :=
  ((List.range t.log.length).find? fun n => entryId n = cursor).elim 0 (· + 1)

/-- The next entries after a cursor, as far as they are still held. -/
def read (t : Trimmed D) (cursor : String) (count : ℕ) : List (String × D) :=
  (t.numbered.drop (max (t.passed cursor) t.evicted)).take count

/-- The cursor after a read: the last id of what was read. -/
def advance {E : Type} (cursor : String) (page : List (String × E)) : String :=
  (page.getLast?.map Prod.fst).getD cursor

/-- The cursor of a reader stands behind `n` entries: `0`, or the id of the last of them. -/
def At (t : Trimmed D) (cursor : String) (n : ℕ) : Prop :=
  (cursor = "0" ∧ n = 0) ∨ ∃ m, cursor = entryId m ∧ n = m + 1 ∧ m < t.log.length

/-- Nothing of kind `φ` is held before the `n`-th entry. -/
def NoneBefore (t : Trimmed D) (φ : D → Bool) (n : ℕ) : Prop :=
  ∀ m < n, t.evicted ≤ m → ∀ d, t.log[m]? = some d → φ d = false

variable {cursor : String} {n count : ℕ} {φ : D → Bool}

theorem entryId_ne_zero (n : ℕ) : entryId n ≠ "0" := by
  intro h
  have hlen := congrArg (fun s : String => s.toList.length) h
  simp [entryId] at hlen

theorem passed_of_at (h : t.At cursor n) : t.passed cursor = n := by
  unfold passed
  rcases h with ⟨rfl, rfl⟩ | ⟨m, rfl, rfl, hm⟩
  · rw [List.find?_eq_none.2 fun m _ => by simp [entryId_ne_zero]]
    rfl
  · have hfind : (List.range t.log.length).find? (fun k => decide (entryId k = entryId m)) = some m := by
      rw [List.find?_range_eq_some]
      refine ⟨by simp, List.mem_range.2 hm, fun k hk => ?_⟩
      have hne : entryId k ≠ entryId m := fun h => Nat.ne_of_lt hk (entryId_injective h)
      simp [hne]
    rw [hfind]
    rfl

theorem at_push {maxlen : ℕ} {slack : ℕ → ℕ} {d : D} (h : t.At cursor n) : (t.push maxlen slack d).At cursor n := by
  rcases h with h | ⟨m, hc, hn, hm⟩
  · exact .inl h
  · refine .inr ⟨m, hc, hn, ?_⟩
    rw [push_log, List.length_append]
    omega

theorem le_of_at (h : t.At cursor n) : n ≤ t.log.length := by
  rcases h with ⟨-, rfl⟩ | ⟨m, -, rfl, hm⟩
  · exact Nat.zero_le _
  · exact hm

theorem noneBefore_push {maxlen : ℕ} {slack : ℕ → ℕ} {d : D} (hn : n ≤ t.log.length) (h : t.NoneBefore φ n) :
    (t.push maxlen slack d).NoneBefore φ n := by
  intro m hm hev e he
  rw [push_log, List.getElem?_append_left (by omega)] at he
  exact h m hm (Nat.le_trans (evicted_push maxlen slack d) hev) e he

theorem getElem?_numbered {m : ℕ} : t.numbered[m]? = t.log[m]?.map fun d => (entryId m, d) := by
  simp [numbered]

def entry (t : Trimmed D) (id : String) : Option D := (t.numbered.find? (·.1 = id)).map Prod.snd

theorem entry_eq {d : D} (h : t.log[n]? = some d) : t.entry (entryId n) = some d := by
  have hfind : t.numbered.find? (fun e => e.1 = entryId n) = some (entryId n, d) := by
    have hget : t.numbered[n]? = some (entryId n, d) := by
      rw [getElem?_numbered, h]
      rfl
    obtain ⟨hlt, hn⟩ := List.getElem?_eq_some_iff.1 hget
    refine List.find?_eq_some_iff_getElem.2 ⟨by simp, n, hlt, hn, fun k hk => ?_⟩
    have hne : entryId k ≠ entryId n := fun h => Nat.ne_of_lt hk (entryId_injective h)
    simp [numbered, hne]
  rw [entry, hfind]
  rfl

theorem getElem?_read (h : t.At cursor n) {m : ℕ} : (t.read cursor count)[m]? =
    if m < count then t.log[max n t.evicted + m]?.map fun d => (entryId (max n t.evicted + m), d) else none := by
  unfold read
  rw [passed_of_at h, List.getElem?_take, List.getElem?_drop, getElem?_numbered]

theorem mem_read (h : t.At cursor n) {id : String} {d : D} (hmem : (id, d) ∈ t.read cursor count) :
    ∃ m, id = entryId m ∧ t.log[m]? = some d := by
  obtain ⟨k, hk⟩ := List.mem_iff_getElem?.1 hmem
  rw [getElem?_read h] at hk
  split_ifs at hk
  obtain ⟨e, he, hpair⟩ := Option.map_eq_some_iff.1 hk
  cases hpair
  exact ⟨_, rfl, he⟩

/-- The first of kind `φ` that a read returns is the first that is held, if none is held before the cursor. -/
theorem find?_content_of_read (h : t.At cursor n) (hnone : t.NoneBefore φ n) {id : String} {d : D}
    (hfind : (t.read cursor count).find? (fun e => φ e.2) = some (id, d)) : t.content.find? φ = some d := by
  have hdrop : (t.log.drop (max n t.evicted)).find? φ = some d := by
    have hmap : t.log.drop (max n t.evicted) = (t.numbered.drop (max n t.evicted)).map Prod.snd := by
      rw [List.map_drop]
      congr 1
      refine List.ext_getElem? fun k => ?_
      rw [List.getElem?_map, getElem?_numbered]
      rcases t.log[k]? with _ | e <;> rfl
    unfold read at hfind
    rw [passed_of_at h] at hfind
    rw [hmap, List.find?_map, ← List.take_append_drop count (t.numbered.drop _), List.find?_append]
    have hcomp : (φ ∘ Prod.snd : String × D → Bool) = fun e => φ e.2 := rfl
    rw [hcomp, hfind]
    rfl
  have hsplit : t.content = (t.content.take (n - t.evicted)) ++ t.log.drop (max n t.evicted) := by
    rw [content]
    conv_lhs => rw [← List.take_append_drop (n - t.evicted) (t.log.drop t.evicted)]
    rw [List.drop_drop]
    congr 2
    omega
  rw [hsplit, List.find?_append, List.find?_eq_none.2, Option.none_or, hdrop]
  intro e he
  obtain ⟨k, hk⟩ := List.mem_iff_getElem?.1 he
  rw [List.getElem?_take, content, List.getElem?_drop] at hk
  split_ifs at hk with hlt
  have := hnone (t.evicted + k) (by omega) (by omega) e hk
  simp [this]

/-- After a read that returned none of kind `φ`, none is held before the new cursor. -/
theorem at_advance (h : t.At cursor n) (hnone : t.NoneBefore φ n)
    (hfind : (t.read cursor count).find? (fun e => φ e.2) = none) :
    ∃ n', t.At (advance cursor (t.read cursor count)) n' ∧ t.NoneBefore φ n' := by
  rcases hlast : (t.read cursor count).getLast? with _ | ⟨id, d⟩
  · refine ⟨n, ?_, hnone⟩
    rw [advance, hlast]
    exact h
  · -- the last entry read is the one at `max n evicted + length - 1`
    have hget := hlast
    rw [List.getLast?_eq_getElem?, getElem?_read h] at hget
    split_ifs at hget with hcount
    obtain ⟨e, he, hpair⟩ := Option.map_eq_some_iff.1 hget
    cases hpair
    obtain ⟨hlt, -⟩ := List.getElem?_eq_some_iff.1 he
    refine ⟨_, .inr ⟨_, ?_, rfl, hlt⟩, fun m hm hev e' he' => ?_⟩
    · rw [advance, hlast]
      rfl
    · by_cases hmn : m < n
      · exact hnone m hmn hev e' he'
      · have hmem : (entryId m, e') ∈ t.read cursor count := by
          refine List.mem_iff_getElem?.2 ⟨m - max n t.evicted, ?_⟩
          have hm' : max n t.evicted + (m - max n t.evicted) = m := by omega
          rw [getElem?_read h, if_pos (by omega), hm', he']
          rfl
        simpa using List.find?_eq_none.1 hfind _ hmem

end Trimmed

end Trimmed

end Transform.Lib
