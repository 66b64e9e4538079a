import Mathlib.Data.Prod.Lex
import Mathlib.Data.String.Basic
import Transform.Lib.Keyset
import Transform.Telemetry.Cursor
import Transform.Telemetry.Totals

/-!
# Telemetry.LogPages — the pages of the logs

`listEvents` and `listInvocations` select the rows of a window that are older than a cursor, newest first, and one row more
than a page holds.  A reader that follows the cursors has each of the rows that were there once, whatever newer rows are
added meanwhile (`pages_exhaust`).
-/

namespace Transform.Telemetry

open Lib

/-! ## A page of a log -/

section KeysetPage

/-- How the database orders ids, of which no two are equal to it, and which moment a bound time is compared as. -/
structure LogDatabase (ι : Type) [LinearOrder ι] where
  collate : String → ι
  collate_injective : ∀ id id', collate id = collate id' → id = id'
  bindTime : DateTime → ℤ
  bindTime_utc : ∀ t : DateTime, t.offset = some 0 → bindTime t = t.instant

/-- The columns that a log is ordered by; the time as the driver returns it, naive or with a zone. -/
structure LogColumns (ρ : Type) where
  createdAt : ρ → DateTime
  id : ρ → String

variable {ρ ι : Type} [LinearOrder ι] (db : LogDatabase ι) (others : String → Option DateTime) (columns : LogColumns ρ)

/-- The time and the id of a row, the time first. -/
def position (row : ρ) : ℤ ×ₗ ι := toLex ((columns.createdAt row).instant, db.collate (columns.id row))

/-- Strictly older than the last row shown; among rows of one time the id decides. -/
def olderThan (cursor : DateTime × String) (row : ρ) : Bool :=
  decide ((columns.createdAt row).instant < db.bindTime cursor.1) ||
    decide ((columns.createdAt row).instant = db.bindTime cursor.1) &&
      decide (db.collate (columns.id row) < db.collate cursor.2)

/-- The condition that a cursor adds, if it can be read. -/
def cursorConditions (cursor : Option String) : List (ρ → Bool) :=
  (((given cursor).bind (decodeCursor others)).map (olderThan db columns)).toList

/-- The rows of a page, and the cursor of its last row if there are more; `none` where the time of that row overflows. -/
def withCursor (page : List ρ × Option ρ) : Option (List ρ × Option String) :=
  match page.2 with
  | none => some (page.1, none)
  | some row => (encodeCursor (columns.createdAt row) (columns.id row)).map fun next => (page.1, some next)

def keysetPage (conditions : List (ρ → Bool)) (cursor : Option String) (limit : ℕ) (rows : List ρ) :
    Option (List ρ × Option String) :=
  let asked := conditions ++ cursorConditions db others columns cursor
  let found := (descending (position db columns) (rows.filter fun row => asked.all (· row))).take (limit + 1)
  withCursor columns (pageOf limit found)

end KeysetPage

/-! ## The request log -/

section Events

/-- A row of the request log. -/
structure ApiRequestEventModel where
  id : String
  accountId : ℕ
  apiKeyId : Option String
  requestId : String
  createdAt : DateTime
  method : String
  routeTemplate : String
  statusCode : ℤ
  durationMs : ℚ
  environment : Option String
  requestBytes : Option ℕ
  responseBytes : Option ℕ

/-- The columns that the conditions read. -/
def ApiRequestEventModel.event (row : ApiRequestEventModel) : ApiRequestEvent where
  id := row.id
  accountId := row.accountId
  apiKeyId := row.apiKeyId
  requestId := row.requestId
  timestamp := row.createdAt.instant
  method := row.method
  routeTemplate := row.routeTemplate
  statusCode := row.statusCode

/-- An event of the log explorer. -/
structure LoggedEvent extends ApiRequestEvent where
  durationMs : ℚ
  environment : Option String
  requestBytes : Option ℕ
  responseBytes : Option ℕ
  apiKeyName : Option String

def toEvent (row : ApiRequestEventModel) (keyName : Option String) : LoggedEvent where
  id := row.id
  accountId := row.accountId
  apiKeyId := row.apiKeyId
  requestId := row.requestId
  timestamp := row.createdAt.aware.instant
  method := row.method
  routeTemplate := row.routeTemplate
  statusCode := row.statusCode
  durationMs := row.durationMs
  environment := row.environment
  requestBytes := row.requestBytes
  responseBytes := row.responseBytes
  apiKeyName := keyName

/-- The event without the name that its key has at the moment. -/
def LoggedEvent.unnamed (e : LoggedEvent) : LoggedEvent := { e with apiKeyName := none }

structure EventPage where
  items : List LoggedEvent
  nextCursor : Option String

structure EventLog where
  rows : List ApiRequestEventModel
  keyName : String → Option String

def eventColumns : LogColumns ApiRequestEventModel := ⟨ApiRequestEventModel.createdAt, ApiRequestEventModel.id⟩

def EventLog.listEvents {ι : Type} [LinearOrder ι] (log : EventLog) (db : LogDatabase ι) (others : String → Option DateTime)
    (text : TextOps) (accountId : ℕ) (start stop : ℤ) (filters : Option ApiLogFilters) (cursor : Option String)
    (limit : ℕ) : Option EventPage := do
  let conditions ← eventConditions text accountId start stop filters
  let (pageRows, nextCursor) ← keysetPage db others eventColumns
    (conditions.map fun condition row => condition row.event) cursor limit log.rows
  return ⟨pageRows.map fun row => toEvent row (row.apiKeyId.bind log.keyName), nextCursor⟩

end Events

/-! ## The log of the tools -/

section Invocations

/-- A row of the log of the tools. -/
structure McpToolInvocationModel where
  id : String
  accountId : ℕ
  grantId : String
  clientId : String
  toolName : String
  outcome : String
  errorCategory : Option String
  durationMs : Option ℚ
  requestId : Option String
  createdAt : DateTime

structure McpToolInvocation where
  id : String
  accountId : ℕ
  grantId : String
  clientId : String
  toolName : String
  outcome : String
  createdAt : DateTime
  errorCategory : Option String
  durationMs : Option ℚ
  requestId : Option String
  clientName : Option String

def toInvocation (row : McpToolInvocationModel) (clientName : Option String) : McpToolInvocation where
  id := row.id
  accountId := row.accountId
  grantId := row.grantId
  clientId := row.clientId
  toolName := row.toolName
  outcome := row.outcome
  createdAt := row.createdAt.aware
  errorCategory := row.errorCategory
  durationMs := row.durationMs
  requestId := row.requestId
  clientName := clientName

/-- The invocation without the name that its client has at the moment. -/
def McpToolInvocation.unnamed (e : McpToolInvocation) : McpToolInvocation := { e with clientName := none }

structure McpActivityFilters where
  grantId : Option String := none
  toolName : Option String := none
  outcome : Option String := none

structure McpActivityPage where
  items : List McpToolInvocation
  nextCursor : Option String

/-- The log of the tools, and the names of the clients by their grants. -/
structure InvocationLog where
  rows : List McpToolInvocationModel
  clientName : String → Option String

def invocationColumns : LogColumns McpToolInvocationModel := ⟨McpToolInvocationModel.createdAt, McpToolInvocationModel.id⟩

def invocationConditions (accountId : ℕ) (start stop : ℤ) (filters : Option McpActivityFilters) :
    List (McpToolInvocationModel → Bool) :=
  [fun row => decide (row.accountId = accountId), fun row => decide (start ≤ row.createdAt.instant),
    fun row => decide (row.createdAt.instant < stop)] ++
    match filters with
    | none => []
    | some filters =>
      ((given filters.grantId).map fun value (row : McpToolInvocationModel) => decide (row.grantId = value)).toList ++
      ((given filters.toolName).map fun value (row : McpToolInvocationModel) => decide (row.toolName = value)).toList ++
      ((given filters.outcome).map fun value (row : McpToolInvocationModel) => decide (row.outcome = value)).toList

def InvocationLog.listInvocations {ι : Type} [LinearOrder ι] (log : InvocationLog) (db : LogDatabase ι)
    (others : String → Option DateTime) (accountId : ℕ) (start stop : ℤ) (filters : Option McpActivityFilters)
    (cursor : Option String) (limit : ℕ) : Option McpActivityPage := do
  let (pageRows, nextCursor) ← keysetPage db others invocationColumns
    (invocationConditions accountId start stop filters) cursor limit log.rows
  return ⟨pageRows.map fun row => toInvocation row (log.clientName row.grantId), nextCursor⟩

end Invocations

/-! ## From page to page -/

section Follow

/-- Following the cursors from the first page on shows each of the rows once, in descending order, and ends. -/
def Exhausts {π β ρ κ : Type} [LinearOrder κ] (ask : ℕ → Option String → Option (π × Option String)) (items : π → List β)
    (key : ρ → κ) (item : ρ → β) (rows : List ρ) : Prop :=
  ∃ pages found, follow ask (rows.length + 1) 0 none = some pages ∧ found.Perm rows ∧ Descends key found ∧
    pages.flatMap items = found.map item

variable {ρ ι : Type} [LinearOrder ι] {db : LogDatabase ι} {others : String → Option DateTime} {columns : LogColumns ρ}
  {conditions : List (ρ → Bool)} {limit : ℕ} {tables : ℕ → List ρ} {row row' : ρ} {cursor : String}

theorem decodeCursor_empty : decodeCursor others "" = none := by
  have hbytes : urlsafeDecode "".toList = some [] := rfl
  have htext : decodeUtf8Strict [] = some "" := decodeUtf8Strict_utf8 ""
  unfold decodeCursor
  rw [hbytes, Option.bind_eq_bind, Option.bind_some, htext, Option.bind_eq_bind, Option.bind_some]
  rfl

theorem cursorConditions_encode (db : LogDatabase ι) (others : String → Option DateTime) (hid : columns.id row ≠ "")
    (hcursor : encodeCursor (columns.createdAt row) (columns.id row) = some cursor) :
    ∃ condition, cursorConditions db others columns (some cursor) = [condition] ∧
      ∀ r, condition r = decide (position db columns r < position db columns row) := by
  obtain ⟨utc, hutc, -⟩ := Option.map_eq_some_iff.mp hcursor
  have hdecode : decodeCursor others cursor = some (utc, columns.id row) := by
    rw [decodeCursor_of_encode hcursor, if_neg hid, hutc]
    rfl
  have hgiven : given (some cursor) = some cursor := by
    refine Option.filter_some_pos (decide_eq_true ?_)
    rintro rfl
    rw [decodeCursor_empty] at hdecode
    cases hdecode
  obtain ⟨hinstant, hoffset⟩ := DateTime.ofInstant_eq_some hutc
  refine ⟨olderThan db columns (utc, columns.id row), ?_, ?_⟩
  · unfold cursorConditions
    rw [hgiven, Option.bind_some, hdecode]
    rfl
  · intro r
    unfold olderThan position
    rw [db.bindTime_utc utc hoffset, hinstant, DateTime.instant_aware, Bool.eq_iff_iff]
    simp only [Bool.or_eq_true, Bool.and_eq_true, decide_eq_true_eq, Prod.Lex.toLex_lt_toLex]

/-- The log only grows by newer rows; the rows that are there at first have ids of their own. -/
structure Grows (columns : LogColumns ρ) (tables : ℕ → List ρ) : Prop where
  ids : ((tables 0).map columns.id).Nodup
  named : ∀ row ∈ tables 0, columns.id row ≠ ""
  grown : ∀ request, GrownFrom (fun row => (columns.createdAt row).instant) (tables 0) (tables request)

def met (conditions : List (ρ → Bool)) (rows : List ρ) : List ρ := rows.filter fun row => conditions.all (· row)

/-- What a reader has before it: everything at first, and what is below the row of its cursor later. -/
def Before (db : LogDatabase ι) (columns : LogColumns ρ) (base : List ρ) (request : ℕ) (cursor : Option String)
    (rest : List ρ) : Prop :=
  (request = 0 ∧ cursor = none ∧ rest = descending (position db columns) base) ∨
    ∃ newer row c, descending (position db columns) base = newer ++ row :: rest ∧
      encodeCursor (columns.createdAt row) (columns.id row) = some c ∧ cursor = some c

theorem met_nodup (h : Grows columns tables) : ((met conditions (tables 0)).map (position db columns)).Nodup := by
  refine List.pairwise_map.mpr ((List.pairwise_map.mp h.ids).sublist List.filter_sublist |>.imp ?_)
  intro a b hne heq
  refine hne (db.collate_injective _ _ ?_)
  exact congrArg (fun p => (ofLex p).2) heq

theorem met_grown (h : Grows columns tables) (request : ℕ) :
    GrownFrom (position db columns) (met conditions (tables 0)) (met conditions (tables request)) := by
  obtain ⟨newer, hperm, hnewer⟩ := h.grown request
  have hposition : GrownFrom (position db columns) (tables 0) (tables request) := by
    refine ⟨newer, hperm, ?_⟩
    intro e he b hb
    exact Prod.Lex.toLex_lt_toLex.mpr (Or.inl (hnewer e he b hb))
  exact hposition.filter _

theorem found_eq_take (others : String → Option DateTime) (h : Grows columns tables) {request : ℕ} {cursor : Option String}
    {rest : List ρ}
    (hbefore : Before db columns (met conditions (tables 0)) request cursor rest) :
    descending (position db columns) (met (conditions ++ cursorConditions db others columns cursor) (tables request)) =
      rest := by
  rcases hbefore with ⟨rfl, rfl, rfl⟩ | ⟨newer, row, c, hrow, hcursor, rfl⟩
  · have hnone : cursorConditions db others columns none = [] := rfl
    rw [hnone, List.append_nil]
  · have hmem : row ∈ tables 0 := by
      have hrow' : row ∈ descending (position db columns) (met conditions (tables 0)) := by simp [hrow]
      exact List.mem_of_mem_filter ((descending_perm _ _).subset hrow')
    obtain ⟨condition, hcondition, hbelow⟩ := cursorConditions_encode db others (h.named row hmem) hcursor
    have hmet : met (conditions ++ [condition]) (tables request) =
        (met conditions (tables request)).filter fun e => decide (position db columns e < position db columns row) := by
      unfold met
      rw [List.filter_filter]
      refine List.filter_congr ?_
      intro e _
      simp [hbelow, Bool.and_comm]
    rw [hcondition, hmet]
    exact descending_below (met_nodup h) (met_grown h request) hrow

theorem keysetPage_advances (db : LogDatabase ι) (others : String → Option DateTime) (h : Grows columns tables)
    (hlimit : 1 ≤ limit) (hdated : ∀ row ∈ met conditions (tables 0), (columns.createdAt row).toUtc.isSome) :
    Advances (fun request cursor => keysetPage db others columns conditions cursor limit (tables request))
      (fun page => page) (Before db columns (met conditions (tables 0))) := by
  intro request cursor rest hbefore
  have hpage : keysetPage db others columns conditions cursor limit (tables request) =
      withCursor columns (pageOf limit (rest.take (limit + 1))) := by
    rw [← found_eq_take others h hbefore]
    rfl
  rcases pageOf_take hlimit rest with hlast | ⟨init, last, after, hmore, hrest⟩
  · refine ⟨rest, none, ?_, Or.inl ⟨rfl, rfl⟩⟩
    show keysetPage db others columns conditions cursor limit (tables request) = _
    rw [hpage, hlast]
    rfl
  · have harranged : ∃ newer, descending (position db columns) (met conditions (tables 0)) = newer ++ last :: after := by
      rcases hbefore with ⟨-, -, rfl⟩ | ⟨newer, row, c, hrow, -, -⟩
      · exact ⟨init, hrest.symm⟩
      · exact ⟨newer ++ row :: init, by rw [hrow, ← hrest]; simp⟩
    obtain ⟨newer, hnewer⟩ := harranged
    have hmem : last ∈ met conditions (tables 0) := (descending_perm (position db columns) _).subset (by simp [hnewer])
    obtain ⟨utc, hutc⟩ := Option.isSome_iff_exists.mp (hdated last hmem)
    obtain ⟨c, hc⟩ : ∃ c, encodeCursor (columns.createdAt last) (columns.id last) = some c := by
      unfold encodeCursor
      rw [hutc]
      exact ⟨_, rfl⟩
    refine ⟨init ++ [last], some c, ?_, Or.inr ⟨last, after, by simp [hrest], by simp, c, rfl, ?_⟩⟩
    · show keysetPage db others columns conditions cursor limit (tables request) = _
      rw [hpage, hmore, withCursor]
      dsimp only
      rw [hc]
      rfl
    · exact Or.inr ⟨newer, last, c, hnewer, hc, rfl⟩

/-- **The pages of a log that grows exhaust the rows that were there at first**, whatever they show of a row. -/
theorem exhausts_of_shown (others : String → Option DateTime) {π β : Type}
    {ask : ℕ → Option String → Option (π × Option String)} {items : π → List β}
    {item : ρ → β} (shown : ℕ → List ρ × Option String → π) (h : Grows columns tables) (hlimit : 1 ≤ limit)
    (hdated : ∀ row ∈ met conditions (tables 0), (columns.createdAt row).toUtc.isSome)
    (hask : ∀ request cursor, ask request cursor =
      (keysetPage db others columns conditions cursor limit (tables request)).map fun p => (shown request p, p.2))
    (hitems : ∀ request p, items (shown request p) = p.1.map item) :
    Exhausts ask items (position db columns) item (met conditions (tables 0)) := by
  have hadvances := (keysetPage_advances db others h hlimit hdated).map hask hitems
  have hlength : (descending (position db columns) (met conditions (tables 0))).length =
      (met conditions (tables 0)).length := (descending_perm _ _).length_eq
  obtain ⟨pages, hpages, hshown⟩ := follow_exhausts hadvances ⟨_, Or.inl ⟨rfl, rfl, rfl⟩, rfl⟩
    (show _ < (met conditions (tables 0)).length + 1 by rw [List.length_map, hlength]; omega)
  exact ⟨pages, _, hpages, descending_perm _ _, descending_descends (met_nodup h), hshown⟩

end Follow

/-! ## Both logs -/

section Logs

variable {ι : Type} [LinearOrder ι] {db : LogDatabase ι} {others : String → Option DateTime} {text : TextOps}
  {accountId : ℕ} {start stop : ℤ} {limit : ℕ}

theorem toUtc_of_window {t : DateTime} (hstart : (DateTime.ofInstant start).isSome)
    (hstop : (DateTime.ofInstant stop).isSome) (h : start ≤ t.instant ∧ t.instant < stop) : t.toUtc.isSome :=
  DateTime.isSome_ofInstant_between hstart hstop h.1 h.2

theorem listEvents_exhausts {logs : ℕ → EventLog} {filters : Option ApiLogFilters}
    (h : Grows eventColumns fun request => (logs request).rows) (hstart : (DateTime.ofInstant start).isSome)
    (hstop : (DateTime.ofInstant stop).isSome) (hread : (eventConditions text accountId start stop filters).isSome)
    (hlimit : 1 ≤ limit) :
    Exhausts (fun request cursor => ((logs request).listEvents db others text accountId start stop filters cursor limit).map
        fun page => (page, page.nextCursor))
      (fun page => page.items.map LoggedEvent.unnamed) (position db eventColumns) (fun row => toEvent row none)
      ((logs 0).rows.filter fun row => matching text accountId ⟨start, stop, ""⟩ filters row.event) := by
  obtain ⟨conditions, hconditions⟩ := Option.isSome_iff_exists.mp hread
  have hmatch : ∀ row : ApiRequestEventModel, (conditions.map fun condition (row : ApiRequestEventModel) =>
      condition row.event).all (· row) = matching text accountId ⟨start, stop, ""⟩ filters row.event := by
    intro row
    rw [← eventConditions_matching hconditions, List.all_map]
    rfl
  have hmet : met (conditions.map fun condition (row : ApiRequestEventModel) => condition row.event) (logs 0).rows =
      (logs 0).rows.filter fun row => matching text accountId ⟨start, stop, ""⟩ filters row.event :=
    List.filter_congr fun row _ => hmatch row
  rw [← hmet]
  let shown : ℕ → List ApiRequestEventModel × Option String → EventPage := fun request p =>
    ⟨p.1.map fun row => toEvent row (row.apiKeyId.bind (logs request).keyName), p.2⟩
  refine exhausts_of_shown others shown h hlimit ?_ ?_ ?_
  · intro row hrow
    obtain ⟨-, hwindow⟩ := List.mem_filter.mp hrow
    rw [hmatch] at hwindow
    unfold matching at hwindow
    rw [Bool.and_eq_true, decide_eq_true_eq] at hwindow
    exact toUtc_of_window hstart hstop hwindow.1.2
  · intro request cursor
    unfold EventLog.listEvents
    rw [hconditions]
    dsimp only [Option.bind_eq_bind, Option.bind_some]
    cases keysetPage db others eventColumns (conditions.map fun condition (row : ApiRequestEventModel) =>
      condition row.event) cursor limit (logs request).rows <;> rfl
  · intro request rows
    show (rows.1.map _).map LoggedEvent.unnamed = _
    rw [List.map_map]
    rfl

theorem listInvocations_exhausts {logs : ℕ → InvocationLog} {filters : Option McpActivityFilters}
    (h : Grows invocationColumns fun request => (logs request).rows) (hstart : (DateTime.ofInstant start).isSome)
    (hstop : (DateTime.ofInstant stop).isSome) (hlimit : 1 ≤ limit) :
    Exhausts (fun request cursor => ((logs request).listInvocations db others accountId start stop filters cursor limit).map
        fun page => (page, page.nextCursor))
      (fun page => page.items.map McpToolInvocation.unnamed) (position db invocationColumns)
      (fun row => toInvocation row none)
      (met (invocationConditions accountId start stop filters) (logs 0).rows) := by
  let shown : ℕ → List McpToolInvocationModel × Option String → McpActivityPage := fun request p =>
    ⟨p.1.map fun row => toInvocation row ((logs request).clientName row.grantId), p.2⟩
  refine exhausts_of_shown others shown h hlimit ?_ ?_ ?_
  · intro row hrow
    obtain ⟨-, hwindow⟩ := List.mem_filter.mp hrow
    unfold invocationConditions at hwindow
    simp only [List.all_append, List.all_cons, List.all_nil, Bool.and_true, Bool.and_eq_true, decide_eq_true_eq] at hwindow
    exact toUtc_of_window hstart hstop hwindow.1.2
  · intro request cursor
    unfold InvocationLog.listInvocations
    dsimp only [Option.bind_eq_bind]
    cases keysetPage db others invocationColumns (invocationConditions accountId start stop filters) cursor limit
      (logs request).rows <;> rfl
  · intro request p
    show (p.1.map _).map McpToolInvocation.unnamed = _
    rw [List.map_map]
    rfl

/-- **Following the cursors of either log shows every row of the window that was there at first once, newest first, and
ends, whatever newer rows are added meanwhile; and a cursor is decoded to the time in UTC and the id it was made of**, where
no id is empty and `int` reads the status that the filters ask for. -/
theorem pages_exhaust (db : LogDatabase ι) (others : String → Option DateTime) :
    (∀ timestamp rowId, rowId ≠ "" →
      (encodeCursor timestamp rowId).bind (decodeCursor others) = timestamp.toUtc.map (·, rowId)) ∧
    (∀ (logs : ℕ → EventLog) text accountId start stop filters limit,
      (Grows eventColumns fun request => (logs request).rows) →
      (DateTime.ofInstant start).isSome → (DateTime.ofInstant stop).isSome →
      (eventConditions text accountId start stop filters).isSome → 1 ≤ limit →
        Exhausts (fun request cursor =>
            ((logs request).listEvents db others text accountId start stop filters cursor limit).map
              fun page => (page, page.nextCursor))
          (fun page => page.items.map LoggedEvent.unnamed) (position db eventColumns) (fun row => toEvent row none)
          ((logs 0).rows.filter fun row => matching text accountId ⟨start, stop, ""⟩ filters row.event)) ∧
    ∀ (logs : ℕ → InvocationLog) accountId start stop filters limit,
      (Grows invocationColumns fun request => (logs request).rows) →
      (DateTime.ofInstant start).isSome → (DateTime.ofInstant stop).isSome → 1 ≤ limit →
        Exhausts (fun request cursor =>
            ((logs request).listInvocations db others accountId start stop filters cursor limit).map
              fun page => (page, page.nextCursor))
          (fun page => page.items.map McpToolInvocation.unnamed) (position db invocationColumns)
          (fun row => toInvocation row none) (met (invocationConditions accountId start stop filters) (logs 0).rows) := by
  refine ⟨fun _ _ hid => decodeCursor_encodeCursor hid, ?_, ?_⟩
  · intro logs text accountId start stop filters limit hgrows hstart hstop hread hlimit
    exact listEvents_exhausts hgrows hstart hstop hread hlimit
  · intro logs accountId start stop filters limit hgrows hstart hstop hlimit
    exact listInvocations_exhausts hgrows hstart hstop hlimit

/-- Ids are ordered as texts, and a bound time is compared as its moment. -/
def plainDatabase : LogDatabase String where
  collate id := id
  collate_injective _ _ h := h
  bindTime := DateTime.instant
  bindTime_utc _ _ := rfl

def naiveEpoch : DateTime := ⟨{ year := 1970, month := 1, day := 1 }, none, by decide, by simp⟩

/-- The same moment, an hour east of UTC. -/
def eastEpoch : DateTime := ⟨{ year := 1970, month := 1, day := 1, hour := 1 }, some 3600000000, by decide, by decide⟩

def naiveSecond : DateTime := ⟨{ year := 1970, month := 1, day := 1, second := 1 }, none, by decide, by simp⟩

def epochRow (id : String) (createdAt : DateTime) : ApiRequestEventModel :=
  ⟨id, 1, none, "req", createdAt, "GET", "/api/v1/files", 200, 1, none, none, none⟩

/-- Three rows of one moment; a second later there is a fourth. -/
def epochLog (request : ℕ) : EventLog where
  rows := [epochRow "a" naiveEpoch, epochRow "b" eastEpoch, epochRow "c" naiveEpoch] ++
    if request = 0 then []
    else [epochRow "d" naiveSecond]
  keyName _ := none

def emptyLog (_ : ℕ) : InvocationLog := ⟨[], fun _ => none⟩

theorem epochLog_grows : Grows eventColumns fun request => (epochLog request).rows where
  ids := by decide
  named := by decide
  grown := by
    intro request
    by_cases h : request = 0
    · rw [h]
      exact GrownFrom.refl _
    · refine ⟨[epochRow "d" naiveSecond], ?_, by decide +kernel⟩
      simp [epochLog, h]

theorem epochLog_exhausted :
    (encodeCursor eastEpoch "b").bind (decodeCursor fun _ => none) = eastEpoch.toUtc.map (·, "b") ∧
    Exhausts (fun request cursor => ((epochLog request).listEvents plainDatabase (fun _ => none) asciiText 1 0 1000000 none
          cursor 1).map fun page => (page, page.nextCursor))
      (fun page => page.items.map LoggedEvent.unnamed) (position plainDatabase eventColumns) (fun row => toEvent row none)
      ((epochLog 0).rows.filter fun row => matching asciiText 1 ⟨0, 1000000, ""⟩ none row.event) ∧
    Exhausts (fun request cursor => ((emptyLog request).listInvocations plainDatabase (fun _ => none) 1 0 1000000 none
          cursor 1).map fun page => (page, page.nextCursor))
      (fun page => page.items.map McpToolInvocation.unnamed) (position plainDatabase invocationColumns)
      (fun row => toInvocation row none) (met (invocationConditions 1 0 1000000 none) (emptyLog 0).rows) :=
  ⟨(pages_exhaust plainDatabase fun _ => none).1 eastEpoch "b" (by decide),
    (pages_exhaust plainDatabase fun _ => none).2.1 epochLog asciiText 1 0 1000000 none 1 epochLog_grows (by decide)
      (by decide) (by decide) (by decide),
    (pages_exhaust plainDatabase fun _ => none).2.2 emptyLog 1 0 1000000 none 1
      ⟨by decide, by decide, fun _ => GrownFrom.refl _⟩ (by decide) (by decide) (by decide)⟩

/-- A row without an id: its cursor is read as none. -/
theorem unnamed_cursor_lost :
    (encodeCursor naiveEpoch "").bind (decodeCursor fun _ => none) ≠ naiveEpoch.toUtc.map (·, "") := by
  rw [encodeCursor_empty]
  decide

end Logs

end Transform.Telemetry
