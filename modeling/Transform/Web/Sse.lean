import Mathlib.Data.List.Basic
import Mathlib.Tactic.SplitIfs
import Transform.Lib.JsString
import Transform.Lib.Splitting

/-!
# Web.Sse — the parser of server-sent events

`createSseParser` of the browser.  It keeps what has come of a block and gives the frames that are complete.  Whatever the
chunks, the frames are those of the lines of the chunks, each with its line ends normalised by itself (`received_eq`).
-/

namespace Transform.Web

open Lib

/-! ## The parser -/

section Parser

def cr : UInt16 := 13

def lf : UInt16 := 10

def colon : UInt16 := 58

def space : UInt16 := 32

structure SseFrame where
  event : JsString
  data : JsString
  deriving DecidableEq

structure Block where
  event : JsString := units "message"
  dataLines : List JsString := []
  deriving DecidableEq

/-- The name of a field. -/
def fieldOf (line : JsString) : JsString := line.takeWhile (· ≠ colon)

/-- The value of a field, without one leading blank. -/
def valueOf (line : JsString) : JsString :=
  let value := (line.dropWhile (· ≠ colon)).drop 1
  if value.head? = some space then value.drop 1 else value

/-- One line of a block; a comment and an unknown field are ignored. -/
def Block.line (block : Block) (line : JsString) : Block :=
  if line = [] ∨ line.head? = some colon then block
  else if fieldOf line = units "event" then { block with event := valueOf line }
  else if fieldOf line = units "data" then { block with dataLines := block.dataLines ++ [valueOf line] }
  else block

def Block.frame (block : Block) : Option SseFrame :=
  if block.dataLines = [] then none else some ⟨block.event, [lf].intercalate block.dataLines⟩

def parseBlock (block : JsString) : Option SseFrame := ((block.splitOn lf).foldl Block.line {}).frame

/-- `replace(/\r\n?/g, "\n")`; the LF after a CR goes with it. -/
def normalisedFrom : Bool → JsString → JsString
  | _, [] => []
  | afterCr, u :: rest =>
    if u = cr then lf :: normalisedFrom true rest
    else if u = lf ∧ afterCr = true then normalisedFrom false rest
    else u :: normalisedFrom false rest

def normalised (text : JsString) : JsString := normalisedFrom false text

/-- `indexOf("\n\n")`. -/
def delimiterAt : JsString → Option ℕ
  | [] => none
  | u :: rest => if u = lf ∧ rest.head? = some lf then some 0 else (delimiterAt rest).map (· + 1)

/-- The frames of the complete blocks, and the rest of the buffer; each round takes two code units at least. -/
def drainBlocks : ℕ → JsString → List SseFrame × JsString
  | 0, buffer => ([], buffer)
  | rounds + 1, buffer =>
    match delimiterAt buffer with
    | none => ([], buffer)
    | some delimiter =>
      let (frames, rest) := drainBlocks rounds (buffer.drop (delimiter + 2))
      ((parseBlock (buffer.take delimiter)).toList ++ frames, rest)

/-- `drain`: the frames, and the buffer that is kept. -/
def drain (final : Bool) (buffer : JsString) : List SseFrame × JsString :=
  let buffer := normalised buffer
  let (frames, buffer) := drainBlocks buffer.length buffer
  if final ∧ buffer.all isJsSpace = false then (frames ++ (parseBlock buffer).toList, [])
  else (frames, buffer)

def pushChunk (buffer chunk : JsString) : List SseFrame × JsString := drain false (buffer ++ chunk)

def flushBuffer (buffer : JsString) : List SseFrame × JsString := drain true buffer

/-- The frames that the chunks give one after the other, and those of the final flush. -/
def receivedFrom : JsString → List JsString → List SseFrame
  | buffer, [] => (flushBuffer buffer).1
  | buffer, chunk :: chunks =>
    let (frames, buffer) := pushChunk buffer chunk
    frames ++ receivedFrom buffer chunks

def received (chunks : List JsString) : List SseFrame := receivedFrom [] chunks

end Parser

/-! ## Line by line -/

section Lines

variable {block : Block} {text tail buffer chunk : JsString} {lines : List JsString}

def framesOfLines : Block → List JsString → List SseFrame
  | block, [] => block.frame.toList
  | block, line :: lines =>
    if line = [] then block.frame.toList ++ framesOfLines {} lines else framesOfLines (block.line line) lines

theorem line_nil : block.line [] = block := if_pos (.inl rfl)

theorem framesOfLines_append (h : ∀ line ∈ lines, line ≠ []) {more : List JsString} :
    framesOfLines block (lines ++ more) = framesOfLines (lines.foldl Block.line block) more := by
  induction lines generalizing block with
  | nil => rfl
  | cons line lines ih =>
    rw [List.cons_append, framesOfLines, if_neg (h line (List.mem_cons_self ..)), List.foldl_cons]
    exact ih fun other hother => h other (List.mem_cons_of_mem _ hother)

/-- The first line of a text may be empty. -/
theorem framesOfLines_cons {line : JsString} (h : ∀ line ∈ lines, line ≠ []) {more : List JsString} :
    framesOfLines {} (line :: lines ++ more) = framesOfLines ((line :: lines).foldl Block.line {}) more := by
  by_cases hline : line = []
  · rw [List.cons_append, framesOfLines, if_pos hline, List.foldl_cons, hline, line_nil]
    exact framesOfLines_append h
  · exact framesOfLines_append (List.forall_mem_cons.2 ⟨hline, h⟩)

theorem delimiterAt_cons {u : UInt16} {rest : JsString} (h : delimiterAt (u :: rest) = none) :
    ¬ (u = lf ∧ rest.head? = some lf) ∧ delimiterAt rest = none := by
  rw [delimiterAt] at h
  split_ifs at h with hdelimiter
  exact ⟨hdelimiter, Option.map_eq_none_iff.1 h⟩

theorem inner_lines : ∀ {text : JsString}, delimiterAt text = none →
    ∀ line ∈ (text.splitOn lf).tail.dropLast, line ≠ []
  | [], _, line, hline => by
    rw [List.splitOn_nil] at hline
    cases hline
  | u :: rest, h, line, hline => by
    obtain ⟨hdelimiter, hrest⟩ := delimiterAt_cons h
    have ih := inner_lines hrest
    rw [splitOn_cons] at hline
    split_ifs at hline with hu
    · rw [List.tail_cons] at hline
      rcases rest with _ | ⟨v, rest⟩
      · rw [List.splitOn_nil] at hline
        cases hline
      · have hv : v ≠ lf := fun hv => hdelimiter ⟨hu, congrArg some hv⟩
        obtain ⟨first, lines, hsplit⟩ := List.exists_cons_of_ne_nil (List.splitOn_ne_nil lf rest)
        rw [splitOn_cons, if_neg hv, hsplit, List.modifyHead_cons] at hline ih
        rcases lines with _ | ⟨second, lines⟩
        · cases hline
        · rw [List.dropLast_cons_cons] at hline
          rcases List.mem_cons.1 hline with rfl | hline
          · exact List.cons_ne_nil _ _
          · exact ih line hline
    · rw [List.tail_modifyHead] at hline
      exact ih line hline

theorem framesOfLines_block (h : delimiterAt (text ++ [lf]) = none) {more : List JsString} :
    framesOfLines {} (text.splitOn lf ++ [] :: more) = (parseBlock text).toList ++ framesOfLines {} more := by
  have hinner := inner_lines h
  rw [List.splitOn_append_cons_self, List.splitOn_nil] at hinner
  unfold parseBlock
  obtain ⟨first, lines, hsplit⟩ := List.exists_cons_of_ne_nil (List.splitOn_ne_nil lf text)
  rw [hsplit, List.cons_append, List.tail_cons, List.dropLast_concat] at hinner
  rw [hsplit, framesOfLines_cons hinner, framesOfLines, if_pos rfl]

theorem framesOfLines_rest (h : delimiterAt text = none) :
    framesOfLines {} (text.splitOn lf) = (parseBlock text).toList := by
  have hinner := inner_lines h
  unfold parseBlock
  obtain ⟨first, lines, hsplit⟩ := List.exists_cons_of_ne_nil (List.splitOn_ne_nil lf text)
  rw [hsplit, List.tail_cons] at hinner
  rw [hsplit]
  rcases List.eq_nil_or_concat lines with rfl | ⟨lines, last, rfl⟩
  · have hfirst : framesOfLines {} ([first] ++ []) = framesOfLines ([first].foldl Block.line {}) [] :=
      framesOfLines_cons (List.forall_mem_nil _)
    exact hfirst
  · rw [List.concat_eq_append] at hinner ⊢
    rw [List.dropLast_concat] at hinner
    rw [← List.cons_append, framesOfLines_cons hinner, List.foldl_append]
    generalize (first :: lines).foldl Block.line {} = block
    rw [framesOfLines]
    split_ifs with hlast
    · rw [hlast, List.foldl_cons, List.foldl_nil, line_nil]
      exact List.append_nil _
    · rfl

theorem delimiterAt_some {delimiter : ℕ} (h : delimiterAt text = some delimiter) :
    text = text.take delimiter ++ lf :: lf :: text.drop (delimiter + 2) ∧
      delimiterAt (text.take delimiter ++ [lf]) = none := by
  induction text generalizing delimiter with
  | nil => cases h
  | cons u rest ih =>
    rw [delimiterAt] at h
    split_ifs at h with hhere
    · cases h
      obtain ⟨rfl, hhead⟩ := hhere
      obtain ⟨after, rfl⟩ := List.head?_eq_some_iff.1 hhead
      exact ⟨rfl, rfl⟩
    · obtain ⟨earlier, hearlier, rfl⟩ := Option.map_eq_some_iff.1 h
      obtain ⟨heq, hnone⟩ := ih hearlier
      refine ⟨congrArg (u :: ·) heq, ?_⟩
      rw [List.take_succ_cons, List.cons_append, delimiterAt, hnone, if_neg]
      · rfl
      · rintro ⟨hu, hhead⟩
        refine hhere ⟨hu, ?_⟩
        rcases earlier with _ | earlier
        · rw [heq]
          rfl
        · rcases rest with _ | ⟨v, rest⟩
          · cases hearlier
          · exact hhead

theorem framesOfLines_drainBlocks (rounds : ℕ) : framesOfLines {} ((text ++ tail).splitOn lf) =
    (drainBlocks rounds text).1 ++ framesOfLines {} (((drainBlocks rounds text).2 ++ tail).splitOn lf) := by
  induction rounds generalizing text with
  | zero => rfl
  | succ rounds ih =>
    rw [drainBlocks]
    rcases h : delimiterAt text with _ | delimiter
    · rfl
    · obtain ⟨heq, hblock⟩ := delimiterAt_some h
      have hsplit : (text ++ tail).splitOn lf = (text.take delimiter).splitOn lf ++
          [] :: (text.drop (delimiter + 2) ++ tail).splitOn lf := by
        conv_lhs => rw [heq]
        rw [List.append_assoc, List.cons_append, List.splitOn_append_cons_self, List.cons_append, splitOn_cons, if_pos rfl]
      rw [hsplit, framesOfLines_block hblock, ih, List.append_assoc]

theorem delimiterAt_drainBlocks {rounds : ℕ} (h : text.length ≤ rounds) :
    delimiterAt (drainBlocks rounds text).2 = none := by
  induction rounds generalizing text with
  | zero =>
    rw [List.length_eq_zero_iff.1 (Nat.le_zero.1 h)]
    rfl
  | succ rounds ih =>
    rw [drainBlocks]
    rcases hdelimiter : delimiterAt text with _ | delimiter
    · exact hdelimiter
    · refine ih ?_
      rw [List.length_drop]
      omega

theorem mem_drainBlocks {rounds : ℕ} {u : UInt16} (h : u ∈ (drainBlocks rounds text).2) : u ∈ text := by
  induction rounds generalizing text with
  | zero => exact h
  | succ rounds ih =>
    rw [drainBlocks] at h
    rcases hdelimiter : delimiterAt text with _ | delimiter
    · rw [hdelimiter] at h
      exact h
    · rw [hdelimiter] at h
      exact List.mem_of_mem_drop (ih h)

end Lines

/-! ## Chunk by chunk -/

section Chunks

variable {text buffer chunk : JsString} {chunks : List JsString} {u : UInt16}

theorem cr_not_mem_normalisedFrom : ∀ {afterCr : Bool} {text : JsString}, cr ∉ normalisedFrom afterCr text
  | _, [] => List.not_mem_nil
  | afterCr, u :: rest => by
    rw [normalisedFrom]
    have ih : ∀ afterCr, cr ∉ normalisedFrom afterCr rest := fun _ => cr_not_mem_normalisedFrom
    split_ifs with hcr
    · exact List.not_mem_cons_of_ne_of_not_mem (by decide) (ih true)
    · exact ih false
    · exact List.not_mem_cons_of_ne_of_not_mem (fun h => hcr h.symm) (ih false)

theorem normalised_append (h : cr ∉ buffer) : normalised (buffer ++ chunk) = buffer ++ normalised chunk := by
  have hfrom : ∀ buffer : JsString, cr ∉ buffer →
      normalisedFrom false (buffer ++ chunk) = buffer ++ normalisedFrom false chunk := by
    intro buffer
    induction buffer with
    | nil => exact fun _ => rfl
    | cons u buffer ih =>
      intro hcr
      obtain ⟨hu, hbuffer⟩ : cr ≠ u ∧ cr ∉ buffer := not_or.1 fun hmem => hcr (List.mem_cons.2 hmem)
      rw [List.cons_append, normalisedFrom, if_neg (Ne.symm hu), if_neg (fun hlf => Bool.false_ne_true hlf.2), ih hbuffer,
        List.cons_append]
  exact hfrom buffer h

theorem normalised_self (h : cr ∉ buffer) : normalised buffer = buffer := by
  have happend : normalised (buffer ++ []) = buffer ++ normalised [] := normalised_append h
  have hnil : normalised [] = [] := rfl
  rwa [hnil, List.append_nil] at happend

theorem line_of_space {block : Block} {line : JsString} (h : ∀ u ∈ line, isJsSpace u = true) :
    block.line line = block := by
  have hfield : ∀ name : JsString, name.head?.any isJsSpace = false → line ≠ [] → fieldOf line ≠ name := by
    intro name hname hline heq
    rcases line with _ | ⟨first, rest⟩
    · exact hline rfl
    · have hfirst : isJsSpace first = true := h first (List.mem_cons_self ..)
      have hcolon : first ≠ colon := by
        rintro rfl
        exact absurd hfirst (by decide)
      have hfield : fieldOf (first :: rest) = first :: fieldOf rest := by simp [fieldOf, hcolon]
      rw [← heq, hfield, List.head?_cons, Option.any_some, hfirst] at hname
      cases hname
  unfold Block.line
  split_ifs with hskip hevent hdata
  · rfl
  · exact absurd hevent (hfield _ (by decide) fun hnil => hskip (.inl hnil))
  · exact absurd hdata (hfield _ (by decide) fun hnil => hskip (.inl hnil))
  · rfl

theorem parseBlock_of_space (h : text.all isJsSpace = true) : parseBlock text = none := by
  have hlines : ∀ lines : List JsString, (∀ line ∈ lines, ∀ u ∈ line, isJsSpace u = true) →
      lines.foldl Block.line {} = {} := by
    intro lines
    induction lines with
    | nil => exact fun _ => rfl
    | cons line lines ih =>
      intro hall
      rw [List.foldl_cons, line_of_space (hall line (List.mem_cons_self ..))]
      exact ih fun other hother => hall other (List.mem_cons_of_mem _ hother)
  unfold parseBlock
  rw [hlines _ fun line hline u hu => List.all_eq_true.1 h u (mem_of_mem_splitOn hline hu)]
  rfl

theorem drain_frames (h : cr ∉ buffer) :
    (flushBuffer buffer).1 = framesOfLines {} (buffer.splitOn lf) := by
  have hsplit : framesOfLines {} ((buffer ++ []).splitOn lf) = (drainBlocks buffer.length buffer).1 ++
      framesOfLines {} (((drainBlocks buffer.length buffer).2 ++ []).splitOn lf) := framesOfLines_drainBlocks _
  have hrest : delimiterAt (drainBlocks buffer.length buffer).2 = none := delimiterAt_drainBlocks le_rfl
  rw [List.append_nil, List.append_nil, framesOfLines_rest hrest] at hsplit
  unfold flushBuffer drain
  dsimp only
  rw [normalised_self h, hsplit]
  split_ifs with hfinal
  · rfl
  · have hspace : (drainBlocks buffer.length buffer).2.all isJsSpace = true := by simpa using hfinal
    rw [parseBlock_of_space hspace]
    exact (List.append_nil _).symm

theorem receivedFrom_eq (h : cr ∉ buffer) :
    receivedFrom buffer chunks = framesOfLines {} ((buffer ++ chunks.flatMap normalised).splitOn lf) := by
  induction chunks generalizing buffer with
  | nil =>
    rw [receivedFrom, List.flatMap_nil, List.append_nil]
    exact drain_frames h
  | cons chunk chunks ih =>
    have hcr : cr ∉ buffer ++ normalised chunk := fun hmem =>
      (List.mem_append.1 hmem).elim h cr_not_mem_normalisedFrom
    rw [receivedFrom, List.flatMap_cons, ← List.append_assoc]
    unfold pushChunk drain
    dsimp only
    rw [normalised_append h, if_neg (fun hfinal => Bool.false_ne_true hfinal.1)]
    dsimp only
    rw [ih fun hmem => hcr (mem_drainBlocks hmem)]
    exact (framesOfLines_drainBlocks _).symm

theorem received_eq : received chunks = framesOfLines {} ((chunks.flatMap normalised).splitOn lf) :=
  receivedFrom_eq List.not_mem_nil

end Chunks

end Transform.Web
