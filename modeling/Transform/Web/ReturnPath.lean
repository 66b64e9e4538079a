import Transform.Lib.WebUrl

/-!
# Web.ReturnPath — where the browser goes after signing in

`safeReturnPath` keeps a recorded destination that begins with one slash.  It looks at the raw text, and the URL parser takes
out tabs and newlines: behind them a second slash is not seen (`safeReturnPath_resolves_iff`).
-/

namespace Transform.Web

open Lib WebUrl

/-! ## The check -/

section Check

/-- A value of the browser's history, of no known type. -/
inductive JsValue where
  | string (text : JsString)
  | other
  deriving DecidableEq

/-- `DEFAULT_RETURN_PATH`. -/
def defaultReturnPath : JsString := units "/app/dashboard"

def safeReturnPath (source : JsValue) (fallback : JsString) : JsString :=
  match source with
  | .other => fallback
  | .string source =>
    if source.length = 0 then fallback
    else if ¬ [slash] <+: source then fallback
    else if [slash, slash] <+: source then fallback
    else if [slash, backslash] <+: source then fallback
    else source

/-- A path of the application: one slash, and for the URL parser no second one after it. -/
def InAppPath (path : JsString) : Prop := [slash] <+: path ∧ ¬ GoesOnWithSlash (path.drop 1)

instance (path : JsString) : Decidable (InAppPath path) := by
  unfold InAppPath
  infer_instance

/-- The destinations in which tabs or newlines stand between two slashes. -/
def Smuggles (source : JsString) : Prop :=
  [slash] <+: source ∧ (source.drop 1).head?.any isTabOrNewline = true ∧ GoesOnWithSlash (source.drop 1)

instance (source : JsString) : Decidable (Smuggles source) := by
  unfold Smuggles
  infer_instance

theorem inAppPath_default : InAppPath defaultReturnPath := by decide

end Check

/-! ## Where it leads -/

section Resolved

variable {Host : Type} {parser : Parser Host} {base : Origin Host} {source fallback path : JsString}

theorem resolve_inAppPath (h : InAppPath path) : parser.resolve base path = some base := by
  obtain ⟨⟨rest, rfl⟩, hone⟩ := h
  rw [List.singleton_append, resolve_slash]
  exact if_neg hone

/-- A second slash that the check lets pass is behind a tab or a newline. -/
theorem smuggles_of_kept {rest : JsString} (hslash : ¬ [slash, slash] <+: slash :: rest)
    (hback : ¬ [slash, backslash] <+: slash :: rest) (hgoes : GoesOnWithSlash rest) : Smuggles (slash :: rest) := by
  refine ⟨List.prefix_append [slash] rest, ?_, hgoes⟩
  rw [List.drop_one, List.tail_cons]
  rcases rest with _ | ⟨u, rest⟩
  · cases hgoes
  · by_contra hu
    rw [List.head?_cons, Option.any_some, Bool.not_eq_true] at hu
    have hfound : (u :: rest).find? (fun u => !isTabOrNewline u) = some u :=
      List.find?_cons_of_pos (by rw [hu]; rfl)
    rw [GoesOnWithSlash, hfound, Option.any_some, isSlash, Bool.or_eq_true, decide_eq_true_iff, decide_eq_true_iff] at hgoes
    rcases hgoes with rfl | rfl
    · exact hslash (List.prefix_append [slash, slash] rest)
    · exact hback (List.prefix_append [slash, backslash] rest)

theorem kept_of_smuggles (h : Smuggles source) : safeReturnPath (.string source) fallback = source := by
  obtain ⟨⟨rest, rfl⟩, htab, -⟩ := h
  have hsecond : ∀ u, isTabOrNewline u = false → ¬ [slash, u] <+: [slash] ++ rest := by
    rintro u hu ⟨more, hmore⟩
    cases hmore
    exact absurd (hu.symm.trans htab) (by decide)
  unfold safeReturnPath
  dsimp only
  rw [if_neg (by simp), if_neg fun hslash => hslash (List.prefix_append [slash] rest), if_neg (hsecond slash (by decide)),
    if_neg (hsecond backslash (by decide))]

theorem inAppPath_of_not_smuggles (hfallback : InAppPath fallback) (h : ¬ Smuggles source) :
    InAppPath (safeReturnPath (.string source) fallback) := by
  unfold safeReturnPath
  dsimp only
  split_ifs with hempty hfirst hslash hback
  · exact hfallback
  · exact hfallback
  · exact hfallback
  · obtain ⟨rest, rfl⟩ := hfirst
    exact ⟨List.prefix_append [slash] rest, fun hgoes => h (smuggles_of_kept hslash hback hgoes)⟩
  · exact hfallback

/-- The browser stays on the origin exactly when no tab or newline hides the authority of another one. -/
theorem safeReturnPath_resolves_iff (parser : Parser Host) (base : Origin Host) (recorded : JsValue)
    {fallback : JsString} (h : InAppPath fallback) :
    parser.resolve base (safeReturnPath recorded fallback) = some base ↔
      ∀ source, recorded = .string source → Smuggles source →
        parser.hostAndPort base.scheme (smuggledAuthority (source.drop 1)) = some (base.host, base.port) := by
  rcases recorded with source | _
  · by_cases hsmuggles : Smuggles source
    · have hkept : safeReturnPath (.string source) fallback = source := kept_of_smuggles hsmuggles
      obtain ⟨⟨rest, rfl⟩, htab, hgoes⟩ := hsmuggles
      have hread : parser.resolve base ([slash] ++ rest) = parser.ofAuthority base (smuggledAuthority rest) :=
        resolve_slash.trans (if_pos hgoes)
      rw [hkept, hread, Parser.ofAuthority, Option.map_eq_some_iff]
      constructor
      · rintro ⟨⟨host, port⟩, hread, hbase⟩ source hsource -
        cases hsource
        rw [← hbase]
        exact hread
      · intro hread
        exact ⟨_, hread _ rfl ⟨List.prefix_append [slash] rest, htab, hgoes⟩, rfl⟩
    · refine iff_of_true (resolve_inAppPath (inAppPath_of_not_smuggles h hsmuggles)) ?_
      intro other hother hsmuggled
      cases hother
      exact absurd hsmuggled hsmuggles
  · refine iff_of_true (resolve_inAppPath h) ?_
    intro source hsource
    cases hsource

def plainDomains : Parser JsString where
  withScheme _ _ := none
  hostAndPort _ authority := some (authority, none)

/-- A query after an application's path stays with it. -/
theorem authorize_request_kept :
    plainDomains.resolve ⟨.https, units "app.example", none⟩
      (safeReturnPath (.string (units "/app/authorize?client_id=x")) defaultReturnPath) =
        some ⟨.https, units "app.example", none⟩ := by
  refine (safeReturnPath_resolves_iff plainDomains _ _ inAppPath_default).2 ?_
  intro source hsource hsmuggles
  cases hsource
  exact absurd hsmuggles (by decide +kernel)

/-- A tab between the slashes leads to another origin. -/
theorem tab_leaves_origin : ¬ ∀ (Host : Type) (parser : Parser Host) (base : Origin Host) (recorded : JsValue)
    (fallback : JsString), InAppPath fallback → parser.resolve base (safeReturnPath recorded fallback) = some base := by
  intro h
  have hleft : plainDomains.resolve ⟨.https, units "app.example", none⟩
      (safeReturnPath (.string (units "/\t/evil.example")) defaultReturnPath) =
        some ⟨.https, units "evil.example", none⟩ := by
    decide +kernel
  have hstays := h JsString plainDomains ⟨.https, units "app.example", none⟩ (.string (units "/\t/evil.example"))
    defaultReturnPath inAppPath_default
  exact absurd (hleft.symm.trans hstays) (by decide +kernel)

end Resolved

end Transform.Web
