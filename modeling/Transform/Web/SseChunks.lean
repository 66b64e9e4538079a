import Mathlib.Data.List.ReduceOption
import Mathlib.Tactic.ByContra
import Transform.Web.Sse

/-!
# Web.SseChunks — the parser and the borders of the chunks

Each `drain` normalises the line ends of the buffer, so that a CR at the end of a chunk is a line end already when its LF
comes: the LF is a second one, and the two end the block.  The frames are those of the whole text exactly when no event
has lines that count on both sides of such a cut (`received_whole_iff`).
-/

namespace Transform.Web

open Lib

/-! ## The cuts -/

section Cuts

/-- The chunks with a mark at the end of each. -/
def bordered (chunks : List JsString) : List (Option UInt16) := chunks.flatMap fun chunk => chunk.map some ++ [none]

/-- The whole text with its line ends normalised and a mark in place of each LF that a border cuts from its CR. -/
def tornFrom : Bool → Bool → List (Option UInt16) → List (Option UInt16)
  | _, _, [] => []
  | afterCr, _, none :: rest => tornFrom afterCr afterCr rest
  | afterCr, cut, some u :: rest =>
    if u = cr then some lf :: tornFrom true false rest
    else if u = lf ∧ afterCr = true then
      if cut = true then none :: tornFrom false false rest else tornFrom false false rest
    else some u :: tornFrom false false rest

/-- A line of the whole text; `cut` where the line end before it is a CRLF that a border cuts. -/
structure SeenLine where
  cut : Bool
  text : JsString
  deriving DecidableEq

def seenLine (line : List (Option UInt16)) : SeenLine := ⟨line.head? = some none, line.reduceOption⟩

def seenLines (chunks : List JsString) : List SeenLine :=
  ((tornFrom false false (bordered chunks)).splitOn (some lf)).map seenLine

/-- The lines that the parser sees for it. -/
def SeenLine.shown (line : SeenLine) : List JsString := if line.cut then [[], line.text] else [line.text]

/-- The runs of lines that are not empty: the events of the whole text. -/
def seenEvents (chunks : List JsString) : List (List SeenLine) := (seenLines chunks).splitOnP (·.text = [])

/-- What the cuts make of an event. -/
def pieces (event : List SeenLine) : List (List JsString) := (event.flatMap SeenLine.shown).splitOn []

def dataOf (lines : List JsString) : List JsString :=
  (lines.filter fun line => fieldOf line = units "data").map valueOf

def nameOf (lines : List JsString) : JsString :=
  ((lines.filter fun line => fieldOf line = units "event").map valueOf).getLastD (units "message")

/-- One piece at most has data lines, and it has the last event line too. -/
def Intact (event : List SeenLine) : Prop :=
  (∀ piece ∈ pieces event, dataOf piece ≠ [] → nameOf piece = nameOf (event.map SeenLine.text)) ∧
    (pieces event).countP (dataOf · ≠ []) ≤ 1

instance (event : List SeenLine) : Decidable (Intact event) := by
  unfold Intact
  infer_instance

end Cuts

/-! ## The lines of the whole text and those of the chunks -/

section Seen

variable {chunk : JsString} {chunks : List JsString} {items rest : List (Option UInt16)} {afterCr cut : Bool}

theorem reduceOption_bordered : (bordered chunks).reduceOption = chunks.flatten := by
  induction chunks with
  | nil => rfl
  | cons chunk chunks ih =>
    have hcons : bordered (chunk :: chunks) = chunk.map some ++ (none :: bordered chunks) := by simp [bordered]
    rw [hcons, List.reduceOption_append, List.reduceOption_cons_of_none, ih, List.flatten_cons]
    simp [List.reduceOption]

theorem reduceOption_tornFrom (afterCr cut : Bool) :
    (tornFrom afterCr cut items).reduceOption = normalisedFrom afterCr items.reduceOption := by
  induction items generalizing afterCr cut with
  | nil => rfl
  | cons item rest ih =>
    rcases item with _ | u
    · rw [tornFrom, ih, List.reduceOption_cons_of_none]
    · rw [tornFrom, List.reduceOption_cons_of_some, normalisedFrom]
      split_ifs with hcr hlf hcut
      · rw [List.reduceOption_cons_of_some, ih _ _]
      · rw [List.reduceOption_cons_of_none, ih _ _]
      · exact ih _ _
      · rw [List.reduceOption_cons_of_some, ih _ _]

theorem getD_tornFrom (afterCr cut : Bool) : ∃ after, (tornFrom afterCr cut (chunk.map some ++ none :: rest)).map (·.getD lf) =
    normalisedFrom (afterCr && !cut) chunk ++ (tornFrom after after rest).map (·.getD lf) := by
  induction chunk generalizing afterCr cut with
  | nil => exact ⟨afterCr, rfl⟩
  | cons u chunk ih =>
    rw [List.map_cons, List.cons_append, tornFrom, normalisedFrom]
    by_cases hcr : u = cr
    · obtain ⟨after, hafter⟩ := ih true false
      refine ⟨after, ?_⟩
      rw [if_pos hcr, if_pos hcr, List.map_cons, hafter]
      rfl
    · obtain ⟨after, hafter⟩ := ih false false
      refine ⟨after, ?_⟩
      rw [if_neg hcr, if_neg hcr]
      rcases afterCr with _ | _
      · rw [if_neg (by simp), if_neg (by simp), List.map_cons, hafter]
        rfl
      · by_cases hlf : u = lf
        · rcases cut with _ | _
          · rw [if_pos ⟨hlf, rfl⟩, if_neg (by simp), if_pos ⟨hlf, rfl⟩, hafter]
            rfl
          · rw [if_pos ⟨hlf, rfl⟩, if_pos rfl, if_neg (by simp), List.map_cons, hafter, hlf]
            rfl
        · rw [if_neg (by simp [hlf]), if_neg (by simp [hlf]), List.map_cons, hafter]
          rfl

theorem getD_torn (afterCr : Bool) : (tornFrom afterCr afterCr (bordered chunks)).map (·.getD lf) = chunks.flatMap normalised := by
  induction chunks generalizing afterCr with
  | nil => rfl
  | cons chunk chunks ih =>
    have hcons : bordered (chunk :: chunks) = chunk.map some ++ (none :: bordered chunks) := by simp [bordered]
    obtain ⟨after, hafter⟩ := @getD_tornFrom chunk (bordered chunks) afterCr afterCr
    rw [hcons, hafter, ih, List.flatMap_cons, Bool.and_not_self]
    rfl

theorem not_mem_tail_tornFrom : (∀ line ∈ (tornFrom afterCr cut items).splitOn (some lf), none ∉ line.tail) ∧
    (afterCr = false → ∀ first ∈ ((tornFrom afterCr cut items).splitOn (some lf)).head?, none ∉ first) := by
  induction items generalizing afterCr cut with
  | nil => simp [tornFrom]
  | cons item rest ih =>
    rcases item with _ | u
    · exact ih
    · obtain ⟨first, others, hsplit⟩ :=
        List.exists_cons_of_ne_nil (List.splitOn_ne_nil (some lf) (tornFrom false false rest))
      obtain ⟨hlines, hfirst⟩ := @ih false false
      rw [hsplit] at hlines hfirst
      have hmark : none ∉ first := hfirst rfl first rfl
      have hothers : ∀ line ∈ others, none ∉ line.tail := fun line hline => hlines line (List.mem_cons_of_mem _ hline)
      rw [tornFrom]
      split_ifs with hcr hlf hcut
      · rw [splitOn_cons, if_pos rfl]
        refine ⟨List.forall_mem_cons.2 ⟨List.not_mem_nil, ih.1⟩, fun _ line hline => ?_⟩
        cases hline
        exact List.not_mem_nil
      · rw [splitOn_cons, if_neg (Option.some_ne_none lf).symm, hsplit, List.modifyHead_cons]
        exact ⟨List.forall_mem_cons.2 ⟨hmark, hothers⟩, fun h => absurd (hlf.2.symm.trans h) (by decide)⟩
      · rw [hsplit]
        exact ⟨hlines, fun h => absurd (hlf.2.symm.trans h) (by decide)⟩
      · rw [splitOn_cons, hsplit]
        split_ifs with hu
        · refine ⟨List.forall_mem_cons.2 ⟨List.not_mem_nil, hlines⟩, fun _ line hline => ?_⟩
          cases hline
          exact List.not_mem_nil
        · rw [List.modifyHead_cons]
          refine ⟨List.forall_mem_cons.2 ⟨hmark, hothers⟩, fun _ line hline => ?_⟩
          cases hline
          exact List.not_mem_cons_of_ne_of_not_mem (Option.some_ne_none u).symm hmark

theorem shown_seenLine {line : List (Option UInt16)} (h : none ∉ line.tail) :
    (line.splitOn none).map List.reduceOption = (seenLine line).shown := by
  rcases line with _ | ⟨item, rest⟩
  · rfl
  · rw [List.tail_cons] at h
    rcases item with _ | u
    · rw [splitOn_cons, if_pos rfl, List.splitOn_eq_singleton h]
      rfl
    · rw [List.splitOn_eq_singleton (List.not_mem_cons_of_ne_of_not_mem (Option.some_ne_none u).symm h)]
      rfl

/-- The parser sees the lines with an empty one before each cut. -/
theorem received_shown : received chunks = framesOfLines {} ((seenLines chunks).flatMap SeenLine.shown) := by
  rw [received_eq, ← getD_torn false, splitOn_map_getD, seenLines, List.flatMap_map]
  refine congrArg _ (List.flatMap_congr fun line hline => ?_)
  exact shown_seenLine (not_mem_tail_tornFrom.1 line hline)

theorem received_whole :
    received [chunks.flatten] = framesOfLines {} ((seenLines chunks).flatMap fun line => [line.text]) := by
  have hone : [chunks.flatten].flatMap normalised = normalised chunks.flatten := List.flatMap_singleton ..
  rw [received_eq, hone, normalised, ← reduceOption_bordered, ← reduceOption_tornFrom false false,
    splitOn_reduceOption, seenLines, List.flatMap_map]
  refine congrArg _ ?_
  rw [List.map_eq_flatMap]
  rfl

end Seen

/-! ## Event by event -/

section Events

variable {block : Block} {lines more : List JsString} {seen event : List SeenLine} {chunks : List JsString}
  {view : SeenLine → List JsString}

theorem framesOfLines_end : framesOfLines block (lines ++ [] :: more) =
    framesOfLines block lines ++ framesOfLines {} more := by
  induction lines generalizing block with
  | nil => exact if_pos rfl
  | cons line lines ih =>
    rw [List.cons_append, framesOfLines, framesOfLines]
    split_ifs with hline
    · rw [ih, List.append_assoc]
    · exact ih

theorem framesOfLines_events (h : ∀ line : SeenLine, line.text = [] → view line = [[]] ∨ view line = [[], []]) :
    framesOfLines {} (seen.flatMap view) =
      (seen.splitOnP (·.text = [])).flatMap fun event => framesOfLines {} (event.flatMap view) := by
  have hfrom : ∀ (seen : List SeenLine) (first : List SeenLine) (others : List (List SeenLine)) (before : List JsString),
      seen.splitOnP (·.text = []) = first :: others → framesOfLines {} (before ++ seen.flatMap view) =
        framesOfLines {} (before ++ first.flatMap view) ++
          others.flatMap fun event => framesOfLines {} (event.flatMap view) := by
    intro seen
    induction seen with
    | nil =>
      intro first others before hsplit
      rw [List.splitOnP_nil] at hsplit
      cases hsplit
      exact (List.append_nil _).symm
    | cons line seen ih =>
      intro first others before hsplit
      obtain ⟨second, rest, hseen⟩ := List.exists_cons_of_ne_nil (List.splitOnP_ne_nil (·.text = []) seen)
      rw [List.splitOnP_cons_eq_if_modifyHead, hseen] at hsplit
      by_cases hline : line.text = []
      · rw [if_pos (decide_eq_true hline)] at hsplit
        cases hsplit
        have hempty : framesOfLines {} (before ++ (line :: seen).flatMap view) =
            framesOfLines {} before ++ framesOfLines {} ([] ++ seen.flatMap view) := by
          rw [List.flatMap_cons]
          rcases h line hline with hview | hview <;> rw [hview]
          · exact framesOfLines_end
          · rw [List.cons_append, framesOfLines_end]
            rfl
        rw [hempty, ih second rest [] hseen, List.flatMap_cons, List.flatMap_nil, List.append_nil, List.nil_append]
      · rw [if_neg (by simpa using hline), List.modifyHead_cons] at hsplit
        cases hsplit
        rw [List.flatMap_cons, List.flatMap_cons, ← List.append_assoc, ih second others _ hseen, List.append_assoc before]
  obtain ⟨first, others, hsplit⟩ := List.exists_cons_of_ne_nil (List.splitOnP_ne_nil (·.text = []) seen)
  have hseen := hfrom seen first others [] hsplit
  rw [List.nil_append, List.nil_append] at hseen
  rw [hseen, hsplit, List.flatMap_cons]

theorem line_eq (block : Block) (line : JsString) : block.line line =
    if fieldOf line = units "event" then { block with event := valueOf line }
    else if fieldOf line = units "data" then { block with dataLines := block.dataLines ++ [valueOf line] }
    else block := by
  unfold Block.line
  by_cases hskip : line = [] ∨ line.head? = some colon
  · have hfield : fieldOf line = [] := by
      rcases hskip with rfl | hcolon
      · rfl
      · obtain ⟨rest, rfl⟩ := List.head?_eq_some_iff.1 hcolon
        rfl
    rw [if_pos hskip, hfield, if_neg (by decide), if_neg (by decide)]
  · exact if_neg hskip

theorem foldl_line : lines.foldl Block.line block =
    ⟨((lines.filter fun line => fieldOf line = units "event").map valueOf).getLastD block.event,
      block.dataLines ++ dataOf lines⟩ := by
  induction lines generalizing block with
  | nil =>
    rw [List.foldl_nil, dataOf, List.filter_nil, List.filter_nil, List.map_nil, List.append_nil]
    rfl
  | cons line lines ih =>
    have hdistinct : units "event" ≠ units "data" := by decide
    rw [List.foldl_cons, ih, line_eq, dataOf, dataOf]
    by_cases hevent : fieldOf line = units "event"
    · have hdata : fieldOf line ≠ units "data" := fun h => hdistinct (hevent.symm.trans h)
      rw [if_pos hevent, List.filter_cons_of_pos (by simpa using hevent), List.filter_cons_of_neg (by simpa using hdata),
        List.map_cons, List.getLastD_cons]
    · rw [if_neg hevent, List.filter_cons_of_neg (by simpa using hevent)]
      by_cases hdata : fieldOf line = units "data"
      · rw [if_pos hdata, List.filter_cons_of_pos (by simpa using hdata), List.map_cons, List.append_assoc]
        rfl
      · rw [if_neg hdata, List.filter_cons_of_neg (by simpa using hdata)]

def eventFrame (name : JsString) (values : List JsString) : List SseFrame :=
  if values = [] then [] else [⟨name, [lf].intercalate values⟩]

theorem frame_foldl : (lines.foldl Block.line {}).frame.toList = eventFrame (nameOf lines) (dataOf lines) := by
  rw [foldl_line]
  unfold Block.frame eventFrame
  dsimp only
  rw [List.nil_append]
  split_ifs <;> rfl

theorem framesOfLines_nonempty (h : ∀ line ∈ lines, line ≠ []) :
    framesOfLines {} lines = eventFrame (nameOf lines) (dataOf lines) := by
  have happend : framesOfLines {} (lines ++ []) = framesOfLines (lines.foldl Block.line {}) [] := framesOfLines_append h
  rw [List.append_nil] at happend
  rw [happend, framesOfLines, frame_foldl]

theorem framesOfLines_splitOn : framesOfLines {} lines =
    (lines.splitOn []).flatMap fun piece => eventFrame (nameOf piece) (dataOf piece) := by
  have hjoin : ∀ pieces : List (List JsString), (∀ piece ∈ pieces, [] ∉ piece) →
      framesOfLines {} ([[]].intercalate pieces) =
        pieces.flatMap fun piece => eventFrame (nameOf piece) (dataOf piece) := by
    intro pieces
    induction pieces with
    | nil => exact fun _ => rfl
    | cons piece pieces ih =>
      intro h
      obtain ⟨hpiece, hpieces⟩ := List.forall_mem_cons.1 h
      have hlines : framesOfLines {} piece = eventFrame (nameOf piece) (dataOf piece) :=
        framesOfLines_nonempty fun line hline hnil => hpiece (hnil ▸ hline)
      rcases pieces with _ | ⟨second, pieces⟩
      · rw [List.intercalate_singleton, hlines, List.flatMap_singleton]
      · rw [List.intercalate_cons_cons, List.append_assoc, List.singleton_append, framesOfLines_end, hlines, ih hpieces]
        rfl
  have hlines : [[]].intercalate (lines.splitOn []) = lines := List.intercalate_splitOn []
  conv_lhs => rw [← hlines]
  exact hjoin _ fun piece hpiece => not_mem_of_mem_splitOn hpiece

theorem dataOf_pieces : (pieces event).flatMap dataOf = dataOf (event.map SeenLine.text) := by
  have hdata : ∀ lines : List JsString, (lines.splitOn []).flatMap dataOf = dataOf lines := by
    intro lines
    induction lines with
    | nil => rfl
    | cons line lines ih =>
      obtain ⟨first, others, hsplit⟩ := List.exists_cons_of_ne_nil (List.splitOn_ne_nil [] lines)
      rw [splitOn_cons, hsplit]
      rw [hsplit, List.flatMap_cons] at ih
      split_ifs with hline
      · rw [List.flatMap_cons, List.flatMap_cons, ih, hline]
        rfl
      · have hcons : ∀ more, dataOf (line :: more) = dataOf [line] ++ dataOf more := fun more => by
          rw [dataOf, dataOf, dataOf, ← List.map_append, ← List.filter_append, List.singleton_append]
        rw [List.modifyHead_cons, List.flatMap_cons, hcons, hcons lines, List.append_assoc, ih]
  have hshown : ∀ event : List SeenLine, dataOf (event.flatMap SeenLine.shown) = dataOf (event.map SeenLine.text) := by
    intro event
    induction event with
    | nil => rfl
    | cons line event ih =>
      have happend : ∀ before after, dataOf (before ++ after) = dataOf before ++ dataOf after := fun before after => by
        rw [dataOf, List.filter_append, List.map_append]
        rfl
      have hline : dataOf line.shown = dataOf [line.text] := by
        unfold SeenLine.shown
        split_ifs <;> rfl
      rw [List.flatMap_cons, happend, ih, hline, List.map_cons, ← happend, List.singleton_append]
  rw [pieces, hdata, hshown]

theorem flatMap_eventFrame_iff {name : JsString} {parts : List (List JsString)} :
    (parts.flatMap fun piece => eventFrame (nameOf piece) (dataOf piece)) = eventFrame name (parts.flatMap dataOf) ↔
      (∀ piece ∈ parts, dataOf piece ≠ [] → nameOf piece = name) ∧ parts.countP (dataOf · ≠ []) ≤ 1 := by
  induction parts with
  | nil => simp [eventFrame]
  | cons piece parts ih =>
    rw [List.flatMap_cons, List.flatMap_cons, List.forall_mem_cons]
    by_cases hdata : dataOf piece = []
    · have hempty : eventFrame (nameOf piece) [] = [] := if_pos rfl
      rw [List.countP_cons_of_neg (by simpa using hdata), hdata, hempty, List.nil_append, List.nil_append, ih]
      simp
    · have hnone : (parts.flatMap fun piece => eventFrame (nameOf piece) (dataOf piece)) = [] ↔
          ∀ piece ∈ parts, dataOf piece = [] := by
        rw [List.flatMap_eq_nil_iff]
        refine forall₂_congr fun piece _ => ?_
        unfold eventFrame
        split_ifs with h <;> simp [h]
      have hcount : parts.countP (dataOf · ≠ []) = 0 ↔ ∀ piece ∈ parts, dataOf piece = [] := by
        rw [List.countP_eq_zero]
        exact forall₂_congr fun piece _ => by simp
      have hone : ∀ n, n + 1 ≤ 1 ↔ n = 0 := fun n => by omega
      rw [List.countP_cons_of_pos (by simpa using hdata), hone,
        hcount, eventFrame, if_neg hdata, eventFrame, if_neg fun h => hdata (List.append_eq_nil_iff.1 h).1,
        List.singleton_append, List.cons.injEq, hnone, SseFrame.mk.injEq]
      constructor
      · rintro ⟨⟨hname, -⟩, hrest⟩
        exact ⟨⟨fun _ => hname, fun other hother hne => absurd (hrest other hother) hne⟩, hrest⟩
      · rintro ⟨⟨hname, -⟩, hrest⟩
        rw [List.flatMap_eq_nil_iff.2 hrest, List.append_nil]
        exact ⟨⟨hname hdata, rfl⟩, hrest⟩

theorem length_eventFrame_le {name : JsString} {parts : List (List JsString)} :
    (eventFrame name (parts.flatMap dataOf)).length ≤
      (parts.flatMap fun piece => eventFrame (nameOf piece) (dataOf piece)).length := by
  unfold eventFrame
  split_ifs with hall
  · exact Nat.zero_le _
  · obtain ⟨piece, hpiece, hdata⟩ : ∃ piece ∈ parts, dataOf piece ≠ [] := by
      by_contra hnone
      push Not at hnone
      exact hall (List.flatMap_eq_nil_iff.2 hnone)
    refine List.length_pos_of_mem (a := ⟨nameOf piece, [lf].intercalate (dataOf piece)⟩) ?_
    exact List.mem_flatMap.2 ⟨piece, hpiece, by rw [if_neg hdata]; exact List.mem_singleton_self _⟩

theorem nonempty_of_mem_events (h : event ∈ seenEvents chunks) : ∀ line ∈ event.map SeenLine.text, line ≠ [] := by
  intro line hline
  obtain ⟨seen, hseen, rfl⟩ := List.mem_map.1 hline
  exact of_decide_eq_false (not_of_mem_splitOnP h seen hseen)

/-- The frames of the chunks are those of the whole text exactly when each event is intact. -/
theorem received_whole_iff : received chunks = received [chunks.flatten] ↔
    ∀ event ∈ seenEvents chunks, Intact event := by
  have hshown : ∀ line : SeenLine, line.text = [] → line.shown = [[]] ∨ line.shown = [[], []] := by
    intro line hline
    rw [SeenLine.shown, hline]
    split_ifs
    · exact .inr rfl
    · exact .inl rfl
  have htext : ∀ line : SeenLine, line.text = [] → [line.text] = [[]] ∨ [line.text] = [[], []] :=
    fun line hline => .inl (congrArg (fun text => [text]) hline)
  have hwhole : ∀ event ∈ seenEvents chunks, framesOfLines {} (event.flatMap fun line => [line.text]) =
      eventFrame (nameOf (event.map SeenLine.text)) ((pieces event).flatMap dataOf) := by
    intro event hevent
    rw [← List.map_eq_flatMap, framesOfLines_nonempty (nonempty_of_mem_events hevent), dataOf_pieces]
  have hcut : ∀ event : List SeenLine, framesOfLines {} (event.flatMap SeenLine.shown) =
      (pieces event).flatMap fun piece => eventFrame (nameOf piece) (dataOf piece) := fun _ => framesOfLines_splitOn
  rw [received_shown, received_whole, framesOfLines_events hshown, framesOfLines_events htext, eq_comm]
  refine (flatMap_eq_flatMap_iff fun event hevent => ?_).trans (forall₂_congr fun event hevent => ?_)
  · rw [hwhole event hevent, hcut]
    exact length_eventFrame_le
  · rw [hwhole event hevent, hcut, eq_comm]
    exact flatMap_eventFrame_iff

/-- A border in the CRLF after the event line takes the name from the event. -/
theorem event_name_lost : ¬ ∀ chunks, received chunks = received [chunks.flatten] := by
  intro h
  have hwhole : received [units "event: x\r\ndata: y\r\n\r\n"] = [⟨units "x", units "y"⟩] := by decide +kernel
  have hcut : received [units "event: x\r", units "\ndata: y\r\n\r\n"] = [⟨units "message", units "y"⟩] := by
    decide +kernel
  have hsame := h [units "event: x\r", units "\ndata: y\r\n\r\n"]
  have hflatten : [units "event: x\r", units "\ndata: y\r\n\r\n"].flatten =
      units "event: x\r\ndata: y\r\n\r\n" := by decide +kernel
  rw [hflatten, hwhole, hcut] at hsame
  exact absurd hsame (by decide +kernel)

end Events

end Transform.Web
