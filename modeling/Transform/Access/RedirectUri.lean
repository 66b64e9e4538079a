import Transform.Lib.Query
import Transform.Lib.UrlSplit
import Transform.Access.Ports

/-!
# Access.RedirectUri — the redirect that carries the answer to a client

`build_redirect_uri` reads the query of a registered redirect URI, sets the response parameters in it and puts the URI
together again.  The query passes through a map, so of a key that repeats only the last value is left: the base's pairs
are kept exactly when no key that is not answered repeats (`redirectKeeps_iff`).
-/

namespace Transform.Access

open Lib

/-! ## Building -/

section Build

/-- Keyword arguments: no name is given twice. -/
structure ResponseParams where
  items : List (String × Option String)
  distinct : (items.map (·.1)).Nodup

/-- The parameters that are given; `None` is dropped. -/
def ResponseParams.given (params : ResponseParams) : List (String × String) :=
  params.items.filterMap fun item => item.2.map fun value => (item.1, value)

/-- Whether a key of the query is answered. -/
def ResponseParams.answers (params : ResponseParams) (key : String) : Bool := (params.given.map (·.1)).contains key

def ResponseParams.spares (params : ResponseParams) (key : String) : Bool := !params.answers key

/-- `build_redirect_uri`; `none` where `urlsplit` raises. -/
def buildRedirectUri (check : NetlocCheck) (base : String) (params : ResponseParams) : Option String := do
  let parts ← urlsplit check base.toList
  let query := mapUpdate [] (parseQsl parts.query)
  let query := mapUpdate query params.given
  pure (String.ofList (urlunsplit { parts with query := urlencode query }))

/-- The parameters of the redirect after a consent. -/
def RedirectAnswer.params (answer : RedirectAnswer) : ResponseParams where
  items := [("code", some answer.code), ("state", answer.state)]
  distinct := by simp

/-- Where the browser is sent after a consent. -/
def RedirectAnswer.uri (check : NetlocCheck) (answer : RedirectAnswer) : Option String :=
  buildRedirectUri check answer.base answer.params

end Build

/-! ## What a redirect is to keep -/

section Keeping

/-- The pairs of a query with the response parameters: the pairs that are not answered as they stood, each response
parameter once, and behind the base's pairs where it answers none of them. -/
structure Preserves (params : ResponseParams) (base result : List (String × String)) : Prop where
  kept : mapOnly params.spares result = mapOnly params.spares base
  answered : (mapOnly params.answers result).Perm params.given
  appended : mapOnly params.answers base = [] → result = base ++ params.given

/-- Nothing but the query differs. -/
structure SameTarget (before after : SplitResult) : Prop where
  scheme : after.scheme = before.scheme
  netloc : after.netloc = before.netloc
  path : after.path = before.path
  fragment : after.fragment = before.fragment

/-- A redirect is built, to the same target, and its query preserves that of the base. -/
def RedirectKeeps (check : NetlocCheck) (base : String) (params : ResponseParams) : Prop :=
  ∃ uri before after, buildRedirectUri check base params = some uri ∧ urlsplit check base.toList = some before ∧
    urlsplit check uri.toList = some after ∧ SameTarget before after ∧
    Preserves params (parseQsl before.query) (parseQsl after.query)

/-- The base can be split, and no key of its query that is not answered repeats. -/
def KeysOnce (check : NetlocCheck) (base : String) (params : ResponseParams) : Prop :=
  ∃ parts, urlsplit check base.toList = some parts ∧
    ((mapOnly params.spares (parseQsl parts.query)).map (·.1)).Nodup

end Keeping

/-! ## The query -/

section Query

variable {params : ResponseParams} {base : List (String × String)}

theorem nodup_given (params : ResponseParams) : (params.given.map (·.1)).Nodup := by
  have hsub : (params.given.map (·.1)).Sublist (params.items.map (·.1)) := by
    unfold ResponseParams.given
    induction params.items with
    | nil => exact .refl _
    | cons item items ih =>
      rcases hvalue : item.2 with _ | value
      · rw [List.filterMap_cons_none (by rw [hvalue]; rfl)]
        exact ih.cons _
      · rw [List.filterMap_cons_some (by rw [hvalue]; rfl)]
        exact ih.cons_cons _
  exact params.distinct.sublist hsub

theorem only_given (params : ResponseParams) :
    mapOnly params.answers params.given = params.given ∧ mapOnly params.spares params.given = [] := by
  have hall : ∀ pair ∈ params.given, params.answers pair.1 = true := fun pair hpair =>
    List.contains_iff_mem.2 (List.mem_map_of_mem hpair)
  constructor
  · exact List.filter_eq_self.2 hall
  · refine List.filter_eq_nil_iff.2 fun pair hpair => ?_
    simp [ResponseParams.spares, hall pair hpair]

/-- The pairs that are not answered go through the map as they are. -/
theorem kept_mapUpdate : mapOnly params.spares (mapUpdate (mapUpdate [] base) params.given) =
    mapUpdate [] (mapOnly params.spares base) := by
  rw [mapOnly_mapUpdate, mapOnly_mapUpdate, (only_given params).2]
  rfl

/-- Each response parameter is there once, with its value. -/
theorem answered_mapUpdate (hbase : (base.map (·.1)).Nodup) :
    (mapOnly params.answers (mapUpdate base params.given)).Perm params.given := by
  rw [mapOnly_mapUpdate, (only_given params).1]
  have hkeys : ((mapOnly params.answers base).map (·.1)).Nodup := hbase.sublist (List.filter_sublist.map _)
  refine perm_of_mapGet (nodup_mapUpdate hkeys) (nodup_given params) fun key => ?_
  rw [mapGet_mapUpdate (nodup_given params)]
  rcases hgiven : mapGet params.given key with _ | given
  · refine mapGet_eq_none.2 fun hmem => ?_
    obtain ⟨pair, hpair, rfl⟩ := List.mem_map.1 hmem
    have hanswers := List.contains_iff_mem.1 (List.mem_filter.1 hpair).2
    exact mapGet_eq_none.1 hgiven hanswers
  · rfl

/-- **A query survives the map exactly when no key of it that is not answered repeats.** -/
theorem preserves_iff : Preserves params base (mapUpdate (mapUpdate [] base) params.given) ↔
    ((mapOnly params.spares base).map (·.1)).Nodup := by
  constructor
  · rintro ⟨hkept, -, -⟩
    rw [kept_mapUpdate] at hkept
    exact mapUpdate_nil_iff.1 hkept
  · intro hnodup
    refine ⟨?_, answered_mapUpdate (nodup_mapUpdate List.nodup_nil), fun hclear => ?_⟩
    · rw [kept_mapUpdate]
      exact mapUpdate_nil_iff.2 hnodup
    · have hout : ∀ pair ∈ base, params.answers pair.1 = false := fun pair hpair => by
        simpa using List.filter_eq_nil_iff.1 hclear pair hpair
      have hall : mapOnly params.spares base = base :=
        List.filter_eq_self.2 fun pair hpair => by simp [ResponseParams.spares, hout pair hpair]
      rw [hall] at hnodup
      rw [mapUpdate_nil_iff.2 hnodup]
      refine mapUpdate_new ?_
      rw [List.map_append]
      refine hnodup.append (nodup_given params) fun key hkey hgiven => ?_
      obtain ⟨pair, hpair, rfl⟩ := List.mem_map.1 hkey
      have hanswers : params.answers pair.1 = true := List.contains_iff_mem.2 hgiven
      rw [hout pair hpair] at hanswers
      cases hanswers

end Query

/-! ## The redirect -/

section Redirect

variable {check : NetlocCheck} {base : String} {params : ResponseParams} {parts : SplitResult}

variable (params) in
theorem urlsplit_buildRedirectUri (h : urlsplit check base.toList = some parts) :
    ∃ uri, buildRedirectUri check base params = some uri ∧
      urlsplit check uri.toList =
        some { parts with query := urlencode (mapUpdate (mapUpdate [] (parseQsl parts.query)) params.given) } := by
  refine ⟨_, by rw [buildRedirectUri, h]; rfl, ?_⟩
  rw [String.toList_ofList]
  refine urlsplit_urlunsplit h fun c hc => ?_
  rcases urlencode_chars _ c hc with hquoted | rfl | rfl
  · constructor
    · rintro rfl
      exact absurd hquoted (by decide)
    · rcases hremoved : isRemoved c with _ | _
      · rfl
      · rcases of_decide_eq_true hremoved with rfl | rfl | rfl
        · exact absurd hquoted (by decide)
        · exact absurd hquoted (by decide)
        · exact absurd hquoted (by decide)
  · decide
  · decide

/-- **Whatever the base's query, the client reads its code in the redirect.** -/
theorem code_mem_uri {answer : RedirectAnswer} (h : urlsplit check answer.base.toList = some parts) :
    ∃ uri after, answer.uri check = some uri ∧ urlsplit check uri.toList = some after ∧
      ("code", answer.code) ∈ parseQsl after.query := by
  obtain ⟨uri, huri, hsplit⟩ := urlsplit_buildRedirectUri answer.params h
  refine ⟨uri, _, huri, hsplit, ?_⟩
  rw [parseQsl_urlencode]
  have hgiven : ("code", answer.code) ∈ answer.params.given := List.mem_cons_self ..
  have hget : mapGet (mapUpdate (mapUpdate [] (parseQsl parts.query)) answer.params.given) "code" =
      some answer.code := by
    rw [mapGet_mapUpdate (nodup_given answer.params), mapGet_of_mem (nodup_given answer.params) hgiven]
    rfl
  exact mem_of_mapGet hget

theorem RedirectKeeps.keysOnce (h : RedirectKeeps check base params) : KeysOnce check base params := by
  obtain ⟨uri, before, after, huri, hbefore, hafter, -, hpreserves⟩ := h
  obtain ⟨uri', huri', hsplit⟩ := urlsplit_buildRedirectUri params hbefore
  rw [huri] at huri'
  cases huri'
  rw [hafter] at hsplit
  cases hsplit
  rw [parseQsl_urlencode] at hpreserves
  exact ⟨before, hbefore, preserves_iff.1 hpreserves⟩

/-- **A redirect keeps its base exactly when the base can be split and no key of its query, but those that are answered,
repeats.** -/
theorem redirectKeeps_iff (check : NetlocCheck) (base : String) (params : ResponseParams) :
    RedirectKeeps check base params ↔ KeysOnce check base params := by
  constructor
  · exact RedirectKeeps.keysOnce
  · rintro ⟨parts, hparts, hnodup⟩
    obtain ⟨uri, huri, hsplit⟩ := urlsplit_buildRedirectUri params hparts
    refine ⟨uri, parts, _, huri, hparts, hsplit, ⟨rfl, rfl, rfl, rfl⟩, ?_⟩
    rw [parseQsl_urlencode]
    exact preserves_iff.2 hnodup

/-- A check that nothing fails. -/
def anyNetloc : NetlocCheck := ⟨fun _ => true, rfl⟩

/-- The answer to a client whose URI gives a key twice. -/
def repeatedAnswer : RedirectAnswer := ⟨"https://app.example/cb?x=1&x=2", "c0de", none⟩

theorem code_mem_uri_repeated : ∃ uri after, repeatedAnswer.uri anyNetloc = some uri ∧
    urlsplit anyNetloc uri.toList = some after ∧ ("code", "c0de") ∈ parseQsl after.query :=
  code_mem_uri (show urlsplit anyNetloc repeatedAnswer.base.toList =
    some ⟨"https".toList, "app.example".toList, "/cb".toList, "x=1&x=2".toList, []⟩ by decide +kernel)

theorem repeated_key_lost : ¬ RedirectKeeps anyNetloc repeatedAnswer.base repeatedAnswer.params := by
  intro h
  obtain ⟨parts, hparts, hnodup⟩ := h.keysOnce
  have hsplit : urlsplit anyNetloc repeatedAnswer.base.toList =
      some ⟨"https".toList, "app.example".toList, "/cb".toList, "x=1&x=2".toList, []⟩ := by decide +kernel
  rw [hsplit] at hparts
  cases hparts
  exact absurd hnodup (by decide +kernel)

end Redirect

end Transform.Access
