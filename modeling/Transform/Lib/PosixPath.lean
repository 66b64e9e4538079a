import Transform.Lib.Splitting

/-!
# Lib.PosixPath — path texts, their clean form, and where they lead

`asPosix` is the text of a `PurePosixPath`.  It leaves a relative path as it is when no component of it is empty or a dot,
and it writes the path of no components as a dot (`asPosix_eq_self_iff`).  `walk` follows a path from a directory.
-/

namespace Transform.Lib.PosixPath

/-! ## Definitions -/

section Defs

/-- `posixpath.splitroot`: the root, and what comes behind it. -/
def splitroot : List Char → List Char × List Char
  | '/' :: '/' :: '/' :: rest => (['/'], '/' :: '/' :: rest)
  | '/' :: '/' :: rest => (['/', '/'], rest)
  | '/' :: rest => (['/'], rest)
  | path => ([], path)

/-- The components of a path behind its root. -/
def tail (path : List Char) : List (List Char) :=
  ((splitroot path).2.splitOn '/').filter fun part => part ≠ [] ∧ part ≠ ['.']

/-- `PurePosixPath(path).as_posix()`. -/
def asPosix (path : List Char) : List Char :=
  let text := (splitroot path).1 ++ ['/'].intercalate (tail path)
  if text = [] then ['.'] else text

/-- One component from a directory: a dot, or nothing, stays there, and two dots go up. -/
def enter (dir : List (List Char)) (part : List Char) : List (List Char) :=
  if part = [] ∨ part = ['.'] then dir else if part = ['.', '.'] then dir.dropLast else dir ++ [part]

/-- The directory or file that a path leads to from a directory. -/
def walk (dir : List (List Char)) (path : List Char) : List (List Char) := (path.splitOn '/').foldl enter dir

/-- `path` is something in the directory, at any depth, and not the directory itself. -/
def StrictlyBelow (dir path : List (List Char)) : Prop := ∃ more ≠ [], path = dir ++ more

/-- A component that leads down. -/
def Descends (part : List Char) : Prop := part ≠ [] ∧ part ≠ ['.'] ∧ part ≠ ['.', '.']

instance decidableDescends (part : List Char) : Decidable (Descends part) := by
  unfold Descends
  infer_instance

end Defs

variable {path rest : List Char} {dir : List (List Char)}

/-! ## The clean form -/

section Clean

theorem splitroot_relative (h : path.head? ≠ some '/') : splitroot path = ([], path) := by
  cases path with
  | nil => rfl
  | cons c path =>
    have hc : c ≠ '/' := fun hc => h (congrArg some hc)
    unfold splitroot
    split
    · rename_i heq
      exact absurd (List.cons.inj heq).1 hc
    · rename_i heq
      exact absurd (List.cons.inj heq).1 hc
    · rename_i heq
      exact absurd (List.cons.inj heq).1 hc
    · rfl

theorem tail_relative (h : path.head? ≠ some '/') :
    tail path = (path.splitOn '/').filter fun part => part ≠ [] ∧ part ≠ ['.'] := by
  rw [tail, splitroot_relative h]

theorem asPosix_relative (h : path.head? ≠ some '/') :
    asPosix path = if ['/'].intercalate (tail path) = [] then ['.'] else ['/'].intercalate (tail path) := by
  rw [asPosix, splitroot_relative h]
  rfl

theorem tail_eq_splitOn (h : path.head? ≠ some '/') (hne : tail path ≠ []) (hjoin : ['/'].intercalate (tail path) = path) :
    path.splitOn '/' = tail path := by
  have hslash : ∀ part ∈ tail path, '/' ∉ part := by
    intro part hpart
    rw [tail_relative h] at hpart
    exact not_mem_of_mem_splitOn (List.mem_of_mem_filter hpart)
  conv_lhs => rw [← hjoin]
  exact List.splitOn_intercalate '/' hslash hne

/-- A relative path is in its clean form if no component is empty or a dot; the one other is the dot. -/
theorem asPosix_eq_self_iff (hne : path ≠ []) (h : path.head? ≠ some '/') :
    asPosix path = path ↔ path = ['.'] ∨ ∀ part ∈ path.splitOn '/', part ≠ [] ∧ part ≠ ['.'] := by
  rw [asPosix_relative h]
  constructor
  · intro hself
    by_cases hempty : ['/'].intercalate (tail path) = []
    · rw [if_pos hempty] at hself
      exact .inl hself.symm
    · rw [if_neg hempty] at hself
      have hparts : tail path ≠ [] := fun hnil => hempty (by rw [hnil]; rfl)
      refine .inr fun part hpart => ?_
      rw [tail_eq_splitOn h hparts hself, tail_relative h] at hpart
      exact of_decide_eq_true (List.mem_filter.1 hpart).2
  · rintro (rfl | hparts)
    · rfl
    · have hall : tail path = path.splitOn '/' := by
        rw [tail_relative h]
        exact List.filter_eq_self.2 fun part hpart => decide_eq_true (hparts part hpart)
      rw [hall, List.intercalate_splitOn, if_neg hne]

end Clean

/-! ## Components -/

section Components

theorem head?_splitOn : (path.splitOn '/').head? = some (path.takeWhile (· ≠ '/')) := by
  induction path with
  | nil => rfl
  | cons c path ih =>
    rw [splitOn_cons]
    by_cases hc : c = '/'
    · rw [if_pos hc, List.takeWhile_cons_of_neg (by rw [hc]; decide)]
      rfl
    · have hstep : (c :: path).takeWhile (· ≠ '/') = c :: path.takeWhile (· ≠ '/') :=
        List.takeWhile_cons_of_pos (by rw [decide_eq_true_iff]; exact hc)
      rw [if_neg hc, hstep, List.head?_modifyHead, ih]
      rfl

theorem splitOn_eq_singleton_iff {part : List Char} (h : '/' ∉ part) : path.splitOn '/' = [part] ↔ path = part := by
  constructor
  · intro heq
    have hjoin : ['/'].intercalate (path.splitOn '/') = path := List.intercalate_splitOn '/'
    rw [heq, List.intercalate_singleton] at hjoin
    exact hjoin.symm
  · rintro rfl
    exact List.splitOn_eq_singleton h

end Components

/-! ## Where a path leads -/

section Walk

theorem enter_descends {part : List Char} (h : Descends part) : enter dir part = dir ++ [part] := by
  rw [enter, if_neg (not_or.2 ⟨h.1, h.2.1⟩), if_neg h.2.2]

theorem foldl_enter {parts : List (List Char)} (h : ∀ part ∈ parts, Descends part) : parts.foldl enter dir = dir ++ parts := by
  induction parts generalizing dir with
  | nil => exact (List.append_nil dir).symm
  | cons part parts ih =>
    obtain ⟨hpart, hparts⟩ := List.forall_mem_cons.1 h
    rw [List.foldl_cons, enter_descends hpart, ih hparts, List.append_assoc, List.singleton_append]

/-- A path behind another goes on where that one leads. -/
theorem walk_append : walk dir (path ++ '/' :: rest) = walk (walk dir path) rest := by
  unfold walk
  rw [List.splitOn_append_cons_self, List.foldl_append]

theorem strictlyBelow_walk (h : ∀ part ∈ path.splitOn '/', Descends part) : StrictlyBelow dir (walk dir path) :=
  ⟨path.splitOn '/', List.splitOn_ne_nil '/' path, foldl_enter h⟩

theorem not_strictlyBelow_dot : ¬ StrictlyBelow dir (walk dir ['.']) := by
  rintro ⟨more, hne, heq⟩
  have hdot : walk dir ['.'] = dir := rfl
  rw [hdot] at heq
  exact hne (List.append_cancel_left (heq.symm.trans (List.append_nil dir).symm))

end Walk

end Transform.Lib.PosixPath
