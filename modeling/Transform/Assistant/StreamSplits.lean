import Mathlib.Data.List.TakeWhile
import Transform.Assistant.ModelStream

/-!
# Assistant.StreamSplits — a stream is read to what was cut into it

Content and tool calls come in fragments, the calls interleaved by index and their arguments cut anywhere, with comments
and blank lines between.  `readStream_fragments`: where the HTTP client cuts no line of data again, the text and the calls
are read as they were, and the calls, sent back and cut again, are read again, exactly if none has an empty id or signature.
-/

namespace Transform.Assistant

open Lib Conversions

/-! ## Lines -/

section Lines

variable {line payload : String} {before after text : List Char}

theorem dropWhile_blank_append (h : Blank before) :
    (before ++ text).dropWhile isStripped = text.dropWhile isStripped := List.dropWhile_append_of_pos h

theorem strip_padded (hbefore : Blank before) (hafter : Blank after) :
    strip (String.ofList (before ++ text ++ after)) = strip (String.ofList text) := by
  have hreverse : Blank after.reverse := fun c hc => hafter c (List.mem_reverse.1 hc)
  unfold strip
  rw [String.toList_ofList, String.toList_ofList, List.append_assoc, dropWhile_blank_append hbefore]
  rcases hstart : text.dropWhile isStripped with _ | ⟨c, rest⟩
  · have hblank : Blank text := fun c hc => List.dropWhile_eq_nil_iff.1 hstart c hc
    rw [dropWhile_blank_append hblank, List.dropWhile_eq_nil_iff.2 hafter]
  · have happend : (text ++ after).dropWhile isStripped = c :: rest ++ after := by
      rw [List.dropWhile_append, hstart]
      rfl
    rw [happend, List.reverse_append, dropWhile_blank_append hreverse]

theorem strip_ends {s : String} (hhead : ∀ c ∈ s.toList.head?, isStripped c = false)
    (hlast : ∀ c ∈ s.toList.getLast?, isStripped c = false) : strip s = s := by
  have hfront : s.toList.dropWhile isStripped = s.toList := by
    rcases htext : s.toList with _ | ⟨c, rest⟩
    · rfl
    · exact List.dropWhile_cons_of_neg (by simp [hhead c (by rw [htext]; rfl)])
  have hback : s.toList.reverse.dropWhile isStripped = s.toList.reverse := by
    rcases htext : s.toList.reverse with _ | ⟨c, rest⟩
    · rfl
    · have hc : c ∈ s.toList.getLast? := by
        rw [← List.head?_reverse, htext]
        rfl
      exact List.dropWhile_cons_of_neg (by simp [hlast c hc])
  unfold strip
  rw [hfront, hback, List.reverse_reverse, String.ofList_toList]

theorem getLast?_stripped (h : strip payload = payload) : ∀ c ∈ payload.toList.getLast?, isStripped c = false := by
  intro c hc
  have htext := congrArg String.toList h
  unfold strip at htext
  rw [String.toList_ofList] at htext
  rw [← htext, List.getLast?_reverse] at hc
  have hhead := List.head?_dropWhile_not isStripped (payload.toList.dropWhile isStripped).reverse
  rw [hc] at hhead
  simpa using hhead

theorem ssePayload_data (h : DataLine payload line) : ssePayload line = some payload := by
  obtain ⟨htrimmed, hne, before, between, after, hbefore, hbetween, hafter, hline⟩ := h
  have hpayload : payload.toList ≠ [] := fun hnil => hne (String.toList_eq_nil_iff.1 hnil)
  have hcore : strip (String.ofList ("data:".toList ++ (between ++ payload.toList))) =
      String.ofList ("data:".toList ++ (between ++ payload.toList)) := by
    refine strip_ends (fun c hc => ?_) (fun c hc => ?_)
    · rw [String.toList_ofList] at hc
      cases hc
      decide
    · rw [String.toList_ofList, ← List.append_assoc, List.getLast?_append_of_ne_nil _ hpayload] at hc
      exact getLast?_stripped htrimmed c hc
  have hstrip : strip line = String.ofList ("data:".toList ++ (between ++ payload.toList)) := by
    rw [← String.ofList_toList (s := line), hline, List.append_assoc before, strip_padded hbefore hafter, hcore]
  have hinner : strip (String.ofList (between ++ payload.toList)) = payload := by
    have hpadded : strip (String.ofList (between ++ payload.toList ++ [])) = strip (String.ofList payload.toList) :=
      strip_padded hbetween nofun
    rw [List.append_nil, String.ofList_toList, htrimmed] at hpadded
    exact hpadded
  have hdata : (strip line).toList = "data:".toList ++ (between ++ payload.toList) := by
    rw [hstrip, String.toList_ofList]
  have hnonempty : ¬ (strip line = "" ∨ hasPrefix ":" (strip line) = true) := by
    rintro (hempty | hcolon)
    · rw [hempty] at hdata
      cases hdata
    · rw [hasPrefix, hdata] at hcolon
      exact absurd hcolon Bool.false_ne_true
  have hprefix : hasPrefix "data:" (strip line) = true := by
    rw [hasPrefix, hdata]
    exact List.isPrefixOf_iff_prefix.2 ⟨_, rfl⟩
  rw [ssePayload, if_neg hnonempty, if_pos hprefix, hdata]
  exact congrArg some hinner

theorem ssePayload_noise (h : Noise line) : ssePayload line = none := by
  have hnone : strip line = "" ∨ hasPrefix ":" (strip line) = true := by
    rcases h with hblank | @⟨before, rest, hbefore, hline⟩
    · left
      unfold strip
      rw [List.dropWhile_eq_nil_iff.2 hblank]
      rfl
    · right
      have hstart : line.toList.dropWhile isStripped = ':' :: rest := by
        rw [hline, dropWhile_blank_append hbefore]
        exact List.dropWhile_cons_of_neg (by decide)
      have hend : ∃ kept, ((':' :: rest).reverse.dropWhile isStripped).reverse = ':' :: kept := by
        rw [List.reverse_cons, List.dropWhile_append]
        split_ifs
        · exact ⟨[], rfl⟩
        · rw [List.reverse_append]
          exact ⟨_, rfl⟩
      obtain ⟨kept, hkept⟩ := hend
      rw [hasPrefix, strip, hstart, hkept, String.toList_ofList (l := ':' :: kept)]
      exact List.isPrefixOf_iff_prefix.2 ⟨_, rfl⟩
  exact if_pos hnone

end Lines

/-! ## Lines that are cut again -/

section Cutting

variable {line : String} {lines : List String} {before core after text : List Char}

theorem strip_spelled (line : String) :
    ∃ before after, Blank before ∧ Blank after ∧ line.toList = before ++ (strip line).toList ++ after := by
  have hblank : ∀ text : List Char, Blank (text.takeWhile isStripped) := fun text c hc => by
    simpa using List.mem_takeWhile_imp hc
  refine ⟨_, ((line.toList.dropWhile isStripped).reverse.takeWhile isStripped).reverse, hblank line.toList,
    fun c hc => hblank _ c (List.mem_reverse.1 hc), ?_⟩
  unfold strip
  rw [String.toList_ofList, List.append_assoc, ← List.reverse_append, List.takeWhile_append_dropWhile, List.reverse_reverse,
    List.takeWhile_append_dropWhile]

theorem staysWhole_of_chars (h : ∀ c ∈ line.toList, lineBoundary c = false) : StaysWhole line := by
  obtain ⟨before, after, -, -, hline⟩ := strip_spelled line
  refine .inl fun c hc => h c ?_
  rw [hline]
  exact List.mem_append_left _ (List.mem_append_right _ hc)

theorem pieces_blank (h : Blank text) : ∀ piece ∈ text.splitOnP lineBoundary, Blank piece := by
  induction text with
  | nil => exact fun piece hpiece => List.mem_singleton.1 hpiece ▸ nofun
  | cons c text ih =>
    have hrest := ih fun c hc => h c (List.mem_cons_of_mem _ hc)
    rw [List.splitOnP_cons_eq_if_modifyHead]
    split_ifs
    · exact List.forall_mem_cons.2 ⟨nofun, hrest⟩
    · rcases hsplit : text.splitOnP lineBoundary with _ | ⟨piece, pieces⟩
      · exact nofun
      · rw [hsplit] at hrest
        obtain ⟨hpiece, hpieces⟩ := List.forall_mem_cons.1 hrest
        exact List.forall_mem_cons.2 ⟨List.forall_mem_cons.2 ⟨h c List.mem_cons_self, hpiece⟩, hpieces⟩

theorem pieces_core (hcore : ∀ c ∈ core, lineBoundary c = false) (hafter : Blank after) :
    ∃ end' pieces, Blank end' ∧ (∀ piece ∈ pieces, Blank piece) ∧
      (core ++ after).splitOnP lineBoundary = (core ++ end') :: pieces := by
  induction core with
  | nil =>
    have hpieces := pieces_blank hafter
    rcases hsplit : after.splitOnP lineBoundary with _ | ⟨end', pieces⟩
    · exact (List.splitOnP_ne_nil _ _ hsplit).elim
    · rw [hsplit] at hpieces
      obtain ⟨hend, hrest⟩ := List.forall_mem_cons.1 hpieces
      exact ⟨end', pieces, hend, hrest, hsplit⟩
  | cons c core ih =>
    obtain ⟨hc, hrest⟩ := List.forall_mem_cons.1 hcore
    obtain ⟨end', pieces, hend, hpieces, hsplit⟩ := ih hrest
    refine ⟨end', pieces, hend, hpieces, ?_⟩
    rw [List.cons_append, List.splitOnP_cons_eq_if_modifyHead, hc, hsplit]
    rfl

theorem pieces_padded (hbefore : Blank before) (hcore : ∀ c ∈ core, lineBoundary c = false) (hafter : Blank after) :
    ∃ first start end' pieces, (∀ piece ∈ first, Blank piece) ∧ Blank start ∧ Blank end' ∧ (∀ piece ∈ pieces, Blank piece) ∧
      (before ++ core ++ after).splitOnP lineBoundary = first ++ (start ++ core ++ end') :: pieces := by
  obtain ⟨end', pieces, hend, hpieces, hsplit⟩ := pieces_core hcore hafter
  induction before with
  | nil => exact ⟨[], [], end', pieces, nofun, nofun, hend, hpieces, hsplit⟩
  | cons c before ih =>
    obtain ⟨hc, hrest⟩ := List.forall_mem_cons.1 hbefore
    obtain ⟨first, start, _, _, hfirst, hstart, hend', hpieces', hrestSplit⟩ := ih hrest
    rw [List.cons_append, List.cons_append, List.splitOnP_cons_eq_if_modifyHead, hrestSplit]
    split_ifs
    · exact ⟨[] :: first, start, _, _, List.forall_mem_cons.2 ⟨nofun, hfirst⟩, hstart, hend', hpieces', rfl⟩
    · rcases first with _ | ⟨piece, first⟩
      · exact ⟨[], c :: start, _, _, nofun, List.forall_mem_cons.2 ⟨hc, hstart⟩, hend', hpieces', rfl⟩
      · obtain ⟨hpiece, hfirst⟩ := List.forall_mem_cons.1 hfirst
        exact ⟨(c :: piece) :: first, start, _, _,
          List.forall_mem_cons.2 ⟨List.forall_mem_cons.2 ⟨hc, hpiece⟩, hfirst⟩, hstart, hend', hpieces', rfl⟩

theorem readLines_skip {pieces : List String} (h : ∀ piece ∈ pieces, ssePayload piece = none) (s : ReadState) :
    readLines s (pieces ++ lines) = readLines s lines := by
  induction pieces with
  | nil => rfl
  | cons piece pieces ih =>
    obtain ⟨hpiece, hpieces⟩ := List.forall_mem_cons.1 h
    rw [List.cons_append, readLines, hpiece]
    exact ih hpieces

theorem readLines_congr {line' : String} (h : strip line' = strip line) (s : ReadState) :
    readLines s (line' :: lines) = readLines s (line :: lines) := by
  have hpayload : ssePayload line' = ssePayload line := by
    unfold ssePayload
    rw [h]
  rw [readLines, readLines, hpayload]

theorem readLines_staysWhole (h : StaysWhole line) (s : ReadState) :
    readLines s (aiterLines [line] ++ lines) = readLines s (line :: lines) := by
  rcases h with hcore | ⟨hnone, hpieces⟩
  · obtain ⟨before, after, hbefore, hafter, hline⟩ := strip_spelled line
    obtain ⟨first, start, end', pieces, hfirst, hstart, hend, hpieces, hsplit⟩ := pieces_padded hbefore hcore hafter
    have hblank : ∀ blanks : List (List Char), (∀ piece ∈ blanks, Blank piece) →
        ∀ piece ∈ blanks.map String.ofList, ssePayload piece = none := by
      intro blanks hblanks piece hpiece
      obtain ⟨text, htext, rfl⟩ := List.mem_map.1 hpiece
      exact ssePayload_noise (.blank (by simpa using hblanks text htext))
    have hcut : aiterLines [line] = first.map String.ofList ++
        (String.ofList (start ++ (strip line).toList ++ end') :: pieces.map String.ofList) := by
      rw [aiterLines, List.flatMap_singleton, hline, hsplit, List.map_append, List.map_cons]
    have hstrip : strip (String.ofList (start ++ (strip line).toList ++ end')) = strip line := by
      rw [strip_padded hstart hend, ← strip_padded hbefore hafter, ← hline, String.ofList_toList]
    rw [hcut, List.append_assoc, readLines_skip (hblank first hfirst), List.cons_append, readLines_congr hstrip, readLines,
      readLines]
    simp only [readLines_skip (hblank pieces hpieces)]
  · rw [readLines_skip hpieces, readLines, hnone]

/-- **Where no line is cut again**, what is read is what the lines say. -/
theorem readStream_uncut (h : Uncut lines) : readStream (aiterLines lines) = readStream lines := by
  have hread : ∀ {lines : List String}, Uncut lines → ∀ s, readLines s (aiterLines lines) = readLines s lines := by
    intro lines h
    induction lines with
    | nil => exact fun _ => rfl
    | cons line lines ih =>
      intro s
      have hcut : aiterLines (line :: lines) = aiterLines [line] ++ aiterLines lines := by
        rw [aiterLines, aiterLines, aiterLines, List.flatMap_cons, List.flatMap_singleton]
      rw [hcut, readLines_staysWhole h.1, readLines, readLines]
      rcases h.2 with hdone | hrest
      · rw [hdone]
        rfl
      · simp only [ih hrest]
  exact hread h {}

end Cutting

/-! ## Fragments are merged -/

section Merging

variable {partials : Partials} {fragments : List Fragment}

/-- A text that is given replaces the one there is. -/
def latest (current text : String) : String := if text = "" then current else text

def PartialCall.add (entry : PartialCall) (f : Fragment) : PartialCall where
  label := entry.label
  id := latest entry.id f.id
  name := latest entry.name f.name
  arguments := entry.arguments ++ f.arguments
  thoughtSignature := latest entry.thoughtSignature f.signature

def addFragment (partials : Partials) (f : Fragment) : Partials :=
  mapSet partials f.index (((mapGet partials f.index).getD { label := f.label }).add f)

theorem textOr_eq (current : String) (value : Option Json) : textOr current value = latest current (textOf value) := by
  unfold textOr textOf latest
  rcases value.bind Json.str? with _ | text
  · rfl
  · rw [Option.getD_some, truthy, Option.filter_some]
    by_cases htext : text = ""
    · rw [if_pos htext, htext]
      rfl
    · rw [if_neg htext, if_pos (decide_eq_true htext), Option.getD_some]

theorem merge_eq (entry : PartialCall) (position : ℕ) (raw : Dict) :
    entry.merge raw = entry.add (Fragment.of position raw) := by
  have hfunction : dictOf (mapGet raw "function") = ((mapGet raw "function").bind Json.obj?).getD [] := rfl
  simp only [PartialCall.merge, textOr_eq, PartialCall.add, Fragment.of, hfunction]
  rcases (mapGet raw "function").bind Json.obj? with _ | function
  · have hnone : entry.arguments = entry.arguments ++ "" := String.append_empty.symm
    exact congrArg (PartialCall.mk _ _ _ · _) hnone
  · rfl

theorem accumulateToolCalls_eq (rawCalls : Option Json) (partials : Partials) :
    accumulateToolCalls rawCalls partials = (fragmentsOf rawCalls).foldl addFragment partials := by
  have hfold : ∀ (raws : List (Json × ℕ)) (partials : Partials), raws.foldl accumulateToolCall partials =
      (raws.filterMap fun raw => raw.1.obj?.map (Fragment.of raw.2)).foldl addFragment partials := by
    intro raws
    induction raws with
    | nil => exact fun _ => rfl
    | cons raw raws ih =>
      intro partials
      obtain ⟨value, position⟩ := raw
      rw [List.foldl_cons, ih]
      cases value with
      | obj fields =>
        have hstep : accumulateToolCall partials (.obj fields, position) =
            addFragment partials (Fragment.of position fields) := by
          unfold addFragment
          rw [← merge_eq]
          rfl
        rw [hstep]
        rfl
      | _ => rfl
  unfold accumulateToolCalls fragmentsOf
  cases rawCalls with
  | none => rfl
  | some value =>
    cases value with
    | arr raws => exact hfold _ _
    | _ => rfl

theorem mapGet_addFragments (index : ℤ) : mapGet (fragments.foldl addFragment partials) index =
    (ownOf fragments index).foldl (fun entry f => some ((entry.getD { label := f.label }).add f))
      (mapGet partials index) := by
  induction fragments generalizing partials with
  | nil => rfl
  | cons f fragments ih =>
    rw [List.foldl_cons, ih]
    by_cases hindex : f.index = index
    · have hown : ownOf (f :: fragments) index = f :: ownOf fragments index :=
        List.filter_cons_of_pos (decide_eq_true hindex)
      rw [hown, List.foldl_cons, addFragment, mapGet_mapSet, if_pos hindex.symm, hindex]
    · have hown : ownOf (f :: fragments) index = ownOf fragments index :=
        List.filter_cons_of_neg (by simpa using hindex)
      rw [hown, addFragment, mapGet_mapSet, if_neg (Ne.symm hindex)]

theorem nodup_addFragments (h : (partials.map (·.1)).Nodup) :
    ((fragments.foldl addFragment partials).map (·.1)).Nodup := by
  induction fragments generalizing partials with
  | nil => exact h
  | cons f fragments ih => exact ih (nodup_mapSet h)

theorem foldl_add (own : List Fragment) (entry : PartialCall) :
    own.foldl PartialCall.add entry = {
      label := entry.label
      id := (own.map (·.id)).foldl latest entry.id
      name := (own.map (·.name)).foldl latest entry.name
      arguments := entry.arguments ++ String.join (own.map (·.arguments))
      thoughtSignature := (own.map (·.signature)).foldl latest entry.thoughtSignature } := by
  induction own generalizing entry with
  | nil =>
    have hnone : entry.arguments = entry.arguments ++ "" := String.append_empty.symm
    exact congrArg (PartialCall.mk _ _ _ · _) hnone
  | cons f own ih =>
    rw [List.foldl_cons, ih, List.map_cons, List.map_cons, List.map_cons, List.map_cons, String.join_cons,
      ← String.append_assoc]
    rfl

/-- A field that some fragment gives, and every fragment gives or leaves out, is what is left. -/
theorem foldl_latest {texts : List String} {value : String} (h : Gives texts value) : texts.foldl latest "" = value := by
  have hfold : ∀ (texts : List String) (current : String), (∀ text ∈ texts, text = "" ∨ text = value) →
      (current = "" ∨ current = value) → (current = value ∨ value ∈ texts) → texts.foldl latest current = value := by
    intro texts
    induction texts with
    | nil =>
      intro current _ _ hgiven
      exact hgiven.resolve_right List.not_mem_nil
    | cons text texts ih =>
      intro current htexts hcurrent hgiven
      have hrest : ∀ text ∈ texts, text = "" ∨ text = value := fun t ht => htexts t (List.mem_cons_of_mem _ ht)
      rw [List.foldl_cons, latest]
      split_ifs with htext
      · refine ih current hrest hcurrent ?_
        rcases hgiven with hgiven | hgiven
        · exact .inl hgiven
        · rcases List.mem_cons.1 hgiven with rfl | hgiven
          · left
            rcases hcurrent with hcurrent | hcurrent
            · rw [hcurrent, htext]
            · exact hcurrent
          · exact .inr hgiven
      · have hvalue : text = value := (htexts text (List.mem_cons_self ..)).resolve_left htext
        exact ih text hrest (.inr hvalue) (.inl hvalue)
  exact hfold texts "" h.2 (.inl rfl) (.inr h.1)

def Gathered (entry : PartialCall) (call : CallText) : Prop :=
  entry.id = call.id ∧ entry.name = call.name ∧ entry.arguments = call.arguments ∧
    entry.thoughtSignature = call.signature

theorem gathered_of_splitOf {index : ℤ} {call : CallText} (h : SplitOf fragments index call) :
    ∃ entry, mapGet (fragments.foldl addFragment []) index = some entry ∧ Gathered entry call := by
  obtain ⟨hid, hname, harguments, hsignature⟩ := h
  have hsome : ∀ (own : List Fragment) (entry : PartialCall),
      own.foldl (fun entry f => some ((entry.getD { label := f.label }).add f)) (some entry) =
        some (own.foldl PartialCall.add entry) := by
    intro own
    induction own with
    | nil => exact fun _ => rfl
    | cons f own ih => exact fun entry => ih (entry.add f)
  rw [mapGet_addFragments]
  rcases hown : ownOf fragments index with _ | ⟨f, own⟩
  · rw [hown] at hid
    exact absurd hid.1 List.not_mem_nil
  · rw [hown] at hid hname harguments hsignature
    have hstart : (f :: own).foldl (fun entry f => some ((entry.getD { label := f.label }).add f)) none =
        some ((f :: own).foldl PartialCall.add { label := f.label }) := hsome own (PartialCall.add { label := f.label } f)
    refine ⟨_, hstart, ?_⟩
    rw [foldl_add]
    exact ⟨foldl_latest hid, foldl_latest hname, String.empty_append.trans harguments, foldl_latest hsignature⟩

theorem sorted_of_splits {calls : List CallText} (h : Splits fragments calls) :
    List.Forall₂ (fun entry call => Gathered entry.2 call)
      ((fragments.foldl addFragment []).mergeSort fun entry entry' => entry.1 ≤ entry'.1) calls := by
  obtain ⟨indexes, hsorted, hindexes, hsplit⟩ := h
  generalize hpartials : fragments.foldl addFragment [] = gathered
  have hentries : ∀ (indexes : List ℤ) (calls : List CallText), List.Forall₂ (SplitOf fragments) indexes calls →
      ∃ entries : Partials, entries.map (·.1) = indexes ∧ (∀ e ∈ entries, mapGet gathered e.1 = some e.2) ∧
        List.Forall₂ (fun entry call => Gathered entry.2 call) entries calls := by
    intro indexes calls hsplit
    induction hsplit with
    | nil => exact ⟨[], rfl, nofun, .nil⟩
    | @cons index call indexes calls hcall _ ih =>
      obtain ⟨entries, hkeys, hget, hgathered⟩ := ih
      obtain ⟨entry, hentry, hcall⟩ := gathered_of_splitOf hcall
      rw [hpartials] at hentry
      refine ⟨(index, entry) :: entries, by rw [List.map_cons, hkeys], fun e he => ?_, .cons hcall hgathered⟩
      rcases List.mem_cons.1 he with rfl | he
      · exact hentry
      · exact hget e he
  obtain ⟨entries, hkeys, hget, hgathered⟩ := hentries indexes calls hsplit
  have hnodup : (gathered.map (·.1)).Nodup := by
    rw [← hpartials]
    exact nodup_addFragments List.nodup_nil
  have hdistinct : (entries.map (·.1)).Nodup := by
    rw [hkeys]
    exact hsorted.imp fun hlt => Int.ne_of_lt hlt
  have hperm : gathered.Perm entries := by
    refine perm_of_mapGet hnodup hdistinct fun index => ?_
    by_cases hindex : index ∈ entries.map (·.1)
    · obtain ⟨e, he, rfl⟩ := List.mem_map.1 hindex
      rw [hget e he, mapGet_of_mem hdistinct he]
    · have hown : ownOf fragments index = [] := List.filter_eq_nil_iff.2 fun f hf hf' =>
        hindex (hkeys ▸ of_decide_eq_true hf' ▸ hindexes f hf)
      rw [mapGet_eq_none.2 hindex, ← hpartials, mapGet_addFragments, hown]
      rfl
  have hentriesSorted : entries.Pairwise fun entry entry' => entry.1 ≤ entry'.1 := by
    have hpairwise : (entries.map (·.1)).Pairwise (· < ·) := hkeys ▸ hsorted
    exact (List.pairwise_map.1 hpairwise).imp fun hlt => Int.le_of_lt hlt
  have hsort : (gathered.mergeSort fun entry entry' => entry.1 ≤ entry'.1) = entries := by
    have hmerged : (gathered.mergeSort fun entry entry' => entry.1 ≤ entry'.1).Pairwise
        fun entry entry' => decide (entry.1 ≤ entry'.1) = true :=
      List.pairwise_mergeSort (fun a b c hab hbc => by simp at hab hbc ⊢; omega) (fun a b => by simp; omega) gathered
    refine List.Perm.eq_of_pairwise (fun a b ha hb hab hba => ?_)
      (hmerged.imp fun hle => of_decide_eq_true hle) hentriesSorted ((List.mergeSort_perm ..).trans hperm)
    have ha' := hperm.mem_iff.1 (List.mem_mergeSort.1 ha)
    exact List.inj_on_of_nodup_map hdistinct ha' hb (Int.le_antisymm hab hba)
  rw [hsort]
  exact hgathered

end Merging

/-! ## The stream is read -/

section Reading

variable {lines : List String} {deltas : List Delta} {spelled : List CallText} {calls : List LlmToolCall}

theorem readDelta_spec (s : ReadState) (delta : Dict) : ∃ texts : List String,
    (s.readDelta delta).2 = texts.map .text ∧ String.join texts = (Delta.of delta).content ∧
      (s.readDelta delta).1.content = s.content ++ (Delta.of delta).content ∧
      (s.readDelta delta).1.partials = (Delta.of delta).fragments.foldl addFragment s.partials := by
  have hpartials := accumulateToolCalls_eq (mapGet delta "tool_calls") s.partials
  unfold ReadState.readDelta Delta.of textOf
  rcases (mapGet delta "content").bind Json.str? with _ | text
  · exact ⟨[], rfl, rfl, String.append_empty.symm, hpartials⟩
  · by_cases htext : text = ""
    · rw [htext]
      exact ⟨[], rfl, rfl, String.append_empty.symm, hpartials⟩
    · have htruthy : truthy (some text) = some text := by
        rw [truthy, Option.filter_some, if_pos (decide_eq_true htext)]
      rw [htruthy]
      have hjoin : String.join [text] = text := by
        rw [String.join_cons]
        exact String.append_empty
      exact ⟨[text], rfl, hjoin, rfl, hpartials⟩

theorem readChoice_spec (s : ReadState) {choice delta : Dict} (h : mapGet choice "delta" = some (.obj delta)) :
    ∃ texts : List String, (s.readChoice choice).2 = texts.map .text ∧ String.join texts = (Delta.of delta).content ∧
      (s.readChoice choice).1.content = s.content ++ (Delta.of delta).content ∧
      (s.readChoice choice).1.partials = (Delta.of delta).fragments.foldl addFragment s.partials := by
  unfold ReadState.readChoice
  rw [h]
  rcases (mapGet choice "finish_reason").bind Json.str? with _ | reason
  · exact readDelta_spec s delta
  · exact readDelta_spec { s with finishReason := some reason } delta

theorem firstChoice_chunk {payload : String} {chunk : Json} {delta : Delta} (hload : Json.loads payload = some chunk)
    (hchunk : ChunkOf chunk delta) : (firstChoice payload = none ∧ delta = ⟨"", []⟩) ∨
      ∃ choice inner, firstChoice payload = some choice ∧ mapGet choice "delta" = some (.obj inner) ∧
        delta = Delta.of inner := by
  have hfirst : firstChoice payload = (chunk.obj?).bind fun fields =>
      ((mapGet fields "choices").bind Json.arr?).bind fun choices => choices.head?.bind Json.obj? := by
    unfold firstChoice
    rw [hload]
    rfl
  cases hchunk with
  | @delta fields choice inner more choices hinner =>
    refine .inr ⟨choice, inner, ?_, hinner, rfl⟩
    rw [hfirst, Json.obj?, Option.bind_some, choices]
    rfl
  | @bare fields choices =>
    refine .inl ⟨?_, rfl⟩
    rw [hfirst, Json.obj?, Option.bind_some]
    rcases hlist : (mapGet fields "choices").bind Json.arr? with _ | items
    · rfl
    · rw [hlist, Option.getD_some] at choices
      rw [choices]
      rfl

theorem readLines_data {line payload : String} {chunk : Json} {delta : Delta} (h : DataLine payload line)
    (hload : Json.loads payload = some chunk) (hchunk : ChunkOf chunk delta) (s : ReadState) :
    ∃ (texts : List String) (s' : ReadState), String.join texts = delta.content ∧
      s'.content = s.content ++ delta.content ∧ s'.partials = delta.fragments.foldl addFragment s.partials ∧
      ∀ lines, readLines s (line :: lines) = texts.map .text ++ readLines s' lines := by
  have hdone : payload ≠ "[DONE]" := by
    rintro rfl
    have hnone : Json.loads "[DONE]" = none := by decide +kernel
    rw [hnone] at hload
    cases hload
  rcases firstChoice_chunk hload hchunk with ⟨hfirst, rfl⟩ | ⟨choice, inner, hfirst, hinner, rfl⟩
  · refine ⟨[], s, rfl, String.append_empty.symm, rfl, fun lines => ?_⟩
    rw [readLines, ssePayload_data h]
    simp only [if_neg hdone, hfirst, List.map_nil, List.nil_append]
  · obtain ⟨texts, hchunks, htexts, hcontent, hpartials⟩ := readChoice_spec s hinner
    refine ⟨texts, (s.readChoice choice).1, htexts, hcontent, hpartials, fun lines => ?_⟩
    rw [readLines, ssePayload_data h]
    simp only [if_neg hdone, hfirst, hchunks]

/-- **The lines of a stream are read to its texts and its fragments**, wherever there is noise. -/
theorem readLines_provides (h : Provides lines deltas) (s : ReadState) :
    ∃ (texts : List String) (s' : ReadState), readLines s lines = texts.map .text ++ [.done s'.response] ∧
      String.join texts = String.join (deltas.map (·.content)) ∧
      s'.content = s.content ++ String.join (deltas.map (·.content)) ∧
      s'.partials = (deltas.flatMap (·.fragments)).foldl addFragment s.partials := by
  induction h generalizing s with
  | closed => exact ⟨[], s, rfl, rfl, String.append_empty.symm, rfl⟩
  | done h =>
    refine ⟨[], s, ?_, rfl, String.append_empty.symm, rfl⟩
    rw [readLines, ssePayload_data h]
    exact if_pos rfl
  | noise h _ ih =>
    obtain ⟨texts, s', hread, hrest⟩ := ih s
    refine ⟨texts, s', ?_, hrest⟩
    rw [readLines, ssePayload_noise h]
    exact hread
  | data h hload hchunk _ ih =>
    obtain ⟨first, s', hfirst, hcontent, hpartials, hline⟩ := readLines_data h hload hchunk s
    obtain ⟨texts, s'', hread, htexts, hcontent', hpartials'⟩ := ih s'
    refine ⟨first ++ texts, s'', ?_, ?_, ?_, ?_⟩
    · rw [hline, hread, List.map_append, List.append_assoc]
    · rw [String.join_append, hfirst, htexts, List.map_cons, String.join_cons]
    · rw [hcontent', hcontent, List.map_cons, String.join_cons, String.append_assoc]
    · rw [hpartials', hpartials, List.flatMap_cons, List.foldl_append]

theorem finaliseToolCall_gathered {entry : ℤ × PartialCall} {text : CallText} {call : LlmToolCall}
    (hgathered : Gathered entry.2 text) (hspells : Spells text call) (hid : call.id ≠ "")
    (hsignature : call.thoughtSignature ≠ some "") : finaliseToolCall entry = call := by
  obtain ⟨hgid, hgname, hgarguments, hgsignature⟩ := hgathered
  obtain ⟨id, name, arguments, signature⟩ := call
  obtain ⟨hsid, hsname, hsarguments, hssignature⟩ := hspells
  have hdecode : decodeArguments entry.2.arguments = arguments := by
    rw [hgarguments, decodeArguments]
    rcases hsarguments with hload | ⟨hempty, hnone⟩
    · have hne : strip text.arguments ≠ "" := by
        intro hempty
        have hnone : Json.loads "" = none := by decide +kernel
        rw [hempty, hnone] at hload
        cases hload
      rw [if_neg hne, hload]
      rfl
    · rw [if_pos hempty]
      exact hnone.symm
  have htruthy : truthy (some entry.2.thoughtSignature) = signature := by
    rw [hgsignature, hssignature]
    rcases signature with _ | signature
    · rfl
    · have hne : signature ≠ "" := fun hempty => hsignature (congrArg some hempty)
      rw [Option.getD_some, truthy, Option.filter_some, if_pos (decide_eq_true hne)]
  have hnonempty : entry.2.id ≠ "" := fun hempty => hid (hsid.symm.trans (hgid.symm.trans hempty))
  unfold finaliseToolCall
  rw [if_neg hnonempty, hgid, hsid, hgname, hsname, hdecode, htruthy]

/-- **A stream of a text and calls is read to them**, however it is cut. -/
theorem yields_of_streams {text : String} (h : Streams lines text spelled) (hspells : List.Forall₂ Spells spelled calls)
    (hids : ∀ call ∈ calls, call.id ≠ "") (hsignatures : ∀ call ∈ calls, call.thoughtSignature ≠ some "") :
    Yields (readStream lines) text calls := by
  obtain ⟨deltas, hprovides, htext, hsplits⟩ := h
  obtain ⟨texts, s, hread, htexts, hcontent, hpartials⟩ := readLines_provides hprovides {}
  refine ⟨texts, s.response, hread, htexts.trans htext, ?_, ?_⟩
  · show s.content = text
    rw [hcontent, htext]
    exact String.empty_append
  · have hsorted := sorted_of_splits hsplits
    rw [← hpartials] at hsorted
    show (s.partials.mergeSort fun entry entry' => entry.1 ≤ entry'.1).map finaliseToolCall = calls
    generalize (s.partials.mergeSort fun entry entry' => entry.1 ≤ entry'.1) = entries at hsorted
    clear hsplits
    induction hspells generalizing entries with
    | nil =>
      cases hsorted
      rfl
    | cons hcall _ ih =>
      cases hsorted with
      | cons hgathered hrest =>
        have hhead := finaliseToolCall_gathered hgathered hcall (hids _ (List.mem_cons_self ..))
          (hsignatures _ (List.mem_cons_self ..))
        rw [List.map_cons, hhead, ih (fun call hcall => hids call (List.mem_cons_of_mem _ hcall))
          (fun call hcall => hsignatures call (List.mem_cons_of_mem _ hcall)) _ hrest]

end Reading

/-! ## Calls go back to the provider -/

section Wire

variable {lines : List String} {text : String} {spelled : List CallText} {calls : List LlmToolCall}

theorem getLast?_writeEntries (entries : Dict) : (writeEntries entries).getLast? = some '\x7d' := by
  induction entries with
  | nil => rfl
  | cons entry entries ih =>
    have hne : writeEntries entries ≠ [] := fun hnil => by
      rw [hnil] at ih
      cases ih
    rw [writeEntries, List.getLast?_append_of_ne_nil _ hne, ih]

theorem strip_dumps (entries : Dict) : strip (Json.obj entries).dumps = (Json.obj entries).dumps := by
  refine strip_ends (fun c hc => ?_) (fun c hc => ?_)
  · rw [Json.dumps, String.toList_ofList] at hc
    rcases entries with _ | ⟨entry, entries⟩
    · cases hc
      decide
    · cases hc
      decide
  · rw [Json.dumps, String.toList_ofList] at hc
    rcases entries with _ | ⟨entry, entries⟩
    · cases hc
      decide
    · have hne : writeEntries entries ≠ [] := fun hnil => by
        have hlast := getLast?_writeEntries entries
        rw [hnil] at hlast
        cases hlast
      rw [Json.write, List.getLast?_append_of_ne_nil _ hne, getLast?_writeEntries] at hc
      cases hc
      decide

def wireText (call : LlmToolCall) : CallText :=
  ⟨call.id, call.name, (Json.obj call.arguments).dumps, (truthy call.thoughtSignature).getD ""⟩

theorem callText_wire (position : ℕ) (call : LlmToolCall) :
    (toolCallToWire call).obj?.map (fun raw => (Fragment.of position raw).callText) = some (wireText call) := by
  obtain ⟨id, name, arguments, signature⟩ := call
  unfold toolCallToWire wireText
  rcases truthy signature with _ | signature
  · rfl
  · rfl

theorem wireCalls_toWireMessage (content : String) (calls : List LlmToolCall) :
    wireCalls (toWireMessage { role := .assistant, content := content, toolCalls := calls }) =
      calls.map wireText := by
  have hfragments : ∀ (calls : List LlmToolCall) (position : ℕ),
      (((calls.map toolCallToWire).zipIdx position).filterMap fun raw => raw.1.obj?.map (Fragment.of raw.2)).map
        Fragment.callText = calls.map wireText := by
    intro calls
    induction calls with
    | nil => exact fun _ => rfl
    | cons call calls ih =>
      intro position
      have hcall := callText_wire position call
      rw [List.map_cons, List.zipIdx_cons]
      obtain ⟨raw, hraw, htext⟩ := Option.map_eq_some_iff.1 hcall
      rw [List.filterMap_cons_some (by rw [hraw]; rfl), List.map_cons, htext, ih]
      rfl
  by_cases hcalls : calls = []
  · rw [hcalls]
    rfl
  · have hmessage : mapGet (toWireMessage { role := .assistant, content := content, toolCalls := calls }) "tool_calls" =
        some (.arr (calls.map toolCallToWire)) := by
      rw [toWireMessage, if_pos ⟨rfl, hcalls⟩]
      rfl
    rw [wireCalls, hmessage]
    exact hfragments calls 0

theorem spells_wireText {text : CallText} {call : LlmToolCall} (h : Spells text call)
    (hsignature : call.thoughtSignature ≠ some "") : Spells (wireText call) call := by
  have hdistinct : (Json.obj call.arguments).Distinct := by
    rcases h.arguments with hload | ⟨-, hnone⟩
    · exact distinct_loads hload
    · rw [hnone]
      exact ⟨List.nodup_nil, trivial⟩
  refine ⟨rfl, rfl, .inl ?_, ?_⟩
  · show Json.loads (strip (Json.obj call.arguments).dumps) = _
    rw [strip_dumps]
    exact loads_dumps hdistinct
  · show (truthy call.thoughtSignature).getD "" = _
    rcases hsig : call.thoughtSignature with _ | signature
    · rfl
    · have hne : signature ≠ "" := fun hempty => hsignature (by rw [hsig, hempty])
      rw [truthy, Option.filter_some, if_pos (decide_eq_true hne)]

theorem readLines_ends (lines : List String) (s : ReadState) :
    ∃ (before : List LlmStreamChunk) (s' : ReadState), readLines s lines = before ++ [.done s'.response] := by
  induction lines generalizing s with
  | nil => exact ⟨[], s, rfl⟩
  | cons line lines ih =>
    rw [readLines]
    split
    · exact ih s
    · split_ifs
      · exact ⟨[], s, rfl⟩
      · split
        · exact ih s
        · rename_i choice _
          obtain ⟨before, s', hread⟩ := ih (s.readChoice choice).1
          exact ⟨(s.readChoice choice).2 ++ before, s', by rw [hread, List.append_assoc]⟩

theorem nonempty_of_yields (h : Yields (readStream lines) text calls) :
    ∀ call ∈ calls, call.id ≠ "" ∧ call.thoughtSignature ≠ some "" := by
  obtain ⟨texts, response, hread, -, -, hcalls⟩ := h
  obtain ⟨before, s, hends⟩ := readLines_ends lines {}
  rw [readStream, hends] at hread
  have hlast := congrArg List.getLast? hread
  rw [List.getLast?_concat, List.getLast?_concat] at hlast
  cases hlast
  intro call hcall
  rw [← hcalls] at hcall
  obtain ⟨entry, -, rfl⟩ := List.mem_map.1 hcall
  unfold finaliseToolCall
  dsimp only
  constructor
  · intro hempty
    split_ifs at hempty with hid
    · have hlabel := congrArg String.toList hempty
      rw [String.toList_append] at hlabel
      cases hlabel
    · exact hid hempty
  · intro hempty
    obtain ⟨-, hne⟩ := Option.filter_eq_some_iff.1 hempty
    exact absurd rfl (of_decide_eq_true hne)

/-- **A provider may cut a text and tool calls into fragments as it likes**: where the client cuts no line of data again,
they are read as they were, and the calls, sent back and cut again, are read again, exactly if no call has an empty id or an
empty signature. -/
theorem readStream_fragments (h : Streams lines text spelled) (huncut : Uncut lines)
    (hspells : List.Forall₂ Spells spelled calls) :
    (Yields (readStream (aiterLines lines)) text calls ∧
      ∀ content lines' text', Streams lines' text'
          (wireCalls (toWireMessage { role := .assistant, content := content, toolCalls := calls })) → Uncut lines' →
        Yields (readStream (aiterLines lines')) text' calls) ↔
      ∀ call ∈ calls, call.id ≠ "" ∧ call.thoughtSignature ≠ some "" := by
  refine ⟨fun hread => nonempty_of_yields hread.1, fun hnonempty => ?_⟩
  have hids : ∀ call ∈ calls, call.id ≠ "" := fun call hcall => (hnonempty call hcall).1
  have hsignatures : ∀ call ∈ calls, call.thoughtSignature ≠ some "" := fun call hcall => (hnonempty call hcall).2
  rw [readStream_uncut huncut]
  refine ⟨yields_of_streams h hspells hids hsignatures, fun content lines' text' h' huncut' => ?_⟩
  rw [wireCalls_toWireMessage] at h'
  rw [readStream_uncut huncut']
  refine yields_of_streams h' ?_ hids hsignatures
  clear h h' hids hnonempty
  induction hspells with
  | nil => exact .nil
  | cons hcall _ ih =>
    exact .cons (spells_wireText hcall (hsignatures _ (List.mem_cons_self ..)))
      (ih fun call hcall => hsignatures call (List.mem_cons_of_mem _ hcall))

/-- The line of a chunk with one choice. -/
def deltaLine (delta : Dict) : String :=
  "data: " ++ (Json.obj [("choices", .arr [.obj [("delta", .obj delta)]])]).dumps

theorem provides_delta {delta : Dict} {deltas : List Delta} (hdistinct : (Json.obj delta).Distinct)
    (h : Provides lines deltas) : Provides (deltaLine delta :: lines) (Delta.of delta :: deltas) := by
  have hdata : DataLine (Json.obj [("choices", .arr [.obj [("delta", .obj delta)]])]).dumps (deltaLine delta) := by
    refine ⟨strip_dumps _, fun hempty => ?_, [], [' '], [], nofun, fun c hc => ?_, nofun, ?_⟩
    · have htext := congrArg String.toList hempty
      rw [Json.dumps, String.toList_ofList] at htext
      cases htext
    · obtain rfl := List.mem_singleton.1 hc
      decide
    · rw [deltaLine, String.toList_append, List.append_nil]
      rfl
  refine .data hdata (loads_dumps ?_) (.delta rfl rfl) h
  exact ⟨List.nodup_singleton _, ⟨⟨⟨List.nodup_singleton _, hdistinct, trivial⟩, trivial⟩, trivial⟩⟩

theorem staysWhole_delta {delta : Dict}
    (h : (Json.obj [("choices", .arr [.obj [("delta", .obj delta)]])]).write.all (! lineBoundary ·) = true) :
    StaysWhole (deltaLine delta) := by
  refine staysWhole_of_chars fun c hc => ?_
  rw [deltaLine, String.toList_append, Json.dumps] at hc
  rcases List.mem_append.1 hc with hc | hc
  · have hdata : "data: ".toList.all (! lineBoundary ·) = true := by decide +kernel
    simpa using List.all_eq_true.1 hdata c hc
  · rw [String.toList_ofList] at hc
    simpa using List.all_eq_true.1 h c hc

/-- Two calls whose fragments are interleaved, with a comment and a blank line between them. -/
def interleavedLines : List String :=
  [": pi\u2028ng",
    deltaLine [("content", .str "Hi ")],
    "",
    deltaLine [("tool_calls", .arr [
      .obj [("index", .int 1), ("id", .str "call_b"), ("function", .obj [("name", .str "list_files")])],
      .obj [("index", .int 0), ("id", .str "call_a"),
        ("function", .obj [("name", .str "convert"), ("arguments", .str "\x7b\"to\": ")])]])],
    deltaLine [("content", .str "there"), ("tool_calls", .arr [
      .obj [("index", .int 0), ("function", .obj [("arguments", .str "\"pdf\"\x7d")])],
      .obj [("index", .int 1), ("extra_content", .obj [("google", .obj [("thought_signature", .str "sig")])])]])],
    "data: [DONE]"]

def interleavedCalls : List LlmToolCall :=
  [⟨"call_a", "convert", [("to", .str "pdf")], none⟩, ⟨"call_b", "list_files", [], some "sig"⟩]

theorem streams_interleaved : Streams interleavedLines "Hi there"
    [⟨"call_a", "convert", "\x7b\"to\": \"pdf\"\x7d", ""⟩, ⟨"call_b", "list_files", "", "sig"⟩] := by
  have hping : Noise ": pi\u2028ng" := .comment (show Blank [] from nofun) rfl
  have hblank : Noise "" := .blank nofun
  have hdone : DataLine "[DONE]" "data: [DONE]" := by
    refine ⟨by decide, by decide, [], [' '], [], nofun, fun c hc => ?_, nofun, rfl⟩
    obtain rfl := List.mem_singleton.1 hc
    decide
  have hprovides : Provides interleavedLines _ :=
    .noise hping (provides_delta (by simp [Json.Distinct, DistinctEntries, DistinctEntry]) (.noise hblank (provides_delta
      (by simp [Json.Distinct, DistinctEntries, DistinctEntry, DistinctItems])
      (provides_delta (by simp [Json.Distinct, DistinctEntries, DistinctEntry, DistinctItems]) (.done hdone)))))
  refine ⟨_, hprovides, by decide +kernel, [0, 1], by decide, by decide +kernel, .cons ?_ (.cons ?_ .nil)⟩
  · exact ⟨⟨by decide +kernel, by decide +kernel⟩, ⟨by decide +kernel, by decide +kernel⟩, by decide +kernel,
      ⟨by decide +kernel, by decide +kernel⟩⟩
  · exact ⟨⟨by decide +kernel, by decide +kernel⟩, ⟨by decide +kernel, by decide +kernel⟩, by decide +kernel,
      ⟨by decide +kernel, by decide +kernel⟩⟩

theorem uncut_interleaved : Uncut interleavedLines :=
  ⟨by decide +kernel, .inr ⟨staysWhole_delta (by decide +kernel), .inr ⟨by decide +kernel, .inr
    ⟨staysWhole_delta (by decide +kernel), .inr ⟨staysWhole_delta (by decide +kernel), .inr
      ⟨by decide +kernel, .inl (by decide +kernel)⟩⟩⟩⟩⟩⟩

theorem spells_interleaved : List.Forall₂ Spells
    [⟨"call_a", "convert", "\x7b\"to\": \"pdf\"\x7d", ""⟩, ⟨"call_b", "list_files", "", "sig"⟩] interleavedCalls :=
  .cons ⟨rfl, rfl, .inl (by decide +kernel), rfl⟩ (.cons ⟨rfl, rfl, .inr ⟨by decide, rfl⟩, rfl⟩ .nil)

theorem readStream_interleaved : (Yields (readStream (aiterLines interleavedLines)) "Hi there" interleavedCalls ∧
    ∀ content lines' text', Streams lines' text'
        (wireCalls (toWireMessage { role := .assistant, content := content, toolCalls := interleavedCalls })) →
      Uncut lines' → Yields (readStream (aiterLines lines')) text' interleavedCalls) ↔
    ∀ call ∈ interleavedCalls, call.id ≠ "" ∧ call.thoughtSignature ≠ some "" :=
  readStream_fragments streams_interleaved uncut_interleaved spells_interleaved

/-- A provider that does not escape a line separator in the text. -/
def separatorPayload : String :=
  "\x7b\"choices\":[\x7b\"delta\":\x7b\"content\":\"a\u2028b\"\x7d\x7d]\x7d"

theorem separator_lost : ∃ lines text spelled calls, Streams lines text spelled ∧ List.Forall₂ Spells spelled calls ∧
    (∀ call ∈ calls, call.id ≠ "" ∧ call.thoughtSignature ≠ some "") ∧
    ¬ Yields (readStream (aiterLines lines)) text calls := by
  have hdata : DataLine separatorPayload ("data:" ++ separatorPayload) :=
    ⟨by decide +kernel, by decide, [], [], [], nofun, nofun, nofun, by decide +kernel⟩
  have hload : Json.loads separatorPayload = some (.obj [("choices", .arr [.obj [("delta", .obj
      [("content", .str "a\u2028b")])]])]) := by decide +kernel
  refine ⟨["data:" ++ separatorPayload], "a\u2028b", [], [],
    ⟨_, .data hdata hload (.delta rfl rfl) .closed, by decide +kernel, [], .nil, by decide +kernel, .nil⟩, .nil, nofun, ?_⟩
  rintro ⟨texts, response, hread, -, hcontent, -⟩
  have hlost : readStream (aiterLines ["data:" ++ separatorPayload]) = [.done { content := "" }] := by decide +kernel
  rw [hlost] at hread
  have hlast := congrArg List.getLast? hread
  rw [List.getLast?_concat] at hlast
  cases hlast
  exact absurd hcontent (by decide)

end Wire

end Transform.Assistant
