import NpsSdk.NwpSqlProvider

/-! Pages of a query over HTTP. A client repeats its request with the cursor it was given until it is given
none. The server does not read the cursor, so every request is answered by the first page. -/

open NpsSdk.Core

namespace NpsSdk.Nwp

open SqlMemoryNodeProvider

/-! ### The client -/

section

variable {T : Type}

/-- The requests of a client that follows the cursors, and the pages it was sent. -/
inductive Fetches (answer : GoDict T → QueryAnswer T) : GoDict T → List (List (GoDict T)) → Prop
  | last {d : GoDict T} {anchorRef : GoString} {rows : List (GoDict T)} {tokenEst : Nat}
      (h : answer d = .caps anchorRef rows [] tokenEst) : Fetches answer d [rows]
  | more {d : GoDict T} {anchorRef cursor : GoString} {rows : List (GoDict T)} {tokenEst : Nat}
      {pages : List (List (GoDict T))} (h : answer d = .caps anchorRef rows cursor tokenEst) (hcursor : cursor ≠ [])
      (hrest : Fetches answer (d.insert "cursor" (.string cursor)) pages) : Fetches answer d (rows :: pages)

/-- The client comes to an end and has every row once, in order. -/
def FetchesAll (answer : GoDict T → QueryAnswer T) (d : GoDict T) (matching : List (GoDict T)) : Prop :=
  ∃ pages, Fetches answer d pages ∧ pages.flatten = matching

variable {answer : GoDict T → QueryAnswer T}

/-- A server that does not look at the cursor sends one page, or the client never ends. -/
theorem Fetches.eq_singleton (hsame : ∀ d v, answer (d.insert "cursor" v) = answer d) {d : GoDict T}
    {pages : List (List (GoDict T))} (h : Fetches answer d pages) :
    ∃ anchorRef rows tokenEst, answer d = .caps anchorRef rows [] tokenEst ∧ pages = [rows] := by
  induction h with
  | last h => exact ⟨_, _, _, h, rfl⟩
  | more h hcursor _ ih =>
    obtain ⟨_, _, _, hlast, -⟩ := ih
    rw [hsame, h] at hlast
    cases hlast
    exact absurd rfl hcursor

theorem fetchesAll_iff (hsame : ∀ d v, answer (d.insert "cursor" v) = answer d) (d : GoDict T)
    (matching : List (GoDict T)) :
    FetchesAll answer d matching ↔ ∃ anchorRef tokenEst, answer d = .caps anchorRef matching [] tokenEst := by
  constructor
  · rintro ⟨pages, hfetches, rfl⟩
    obtain ⟨anchorRef, rows, tokenEst, hanswer, rfl⟩ := hfetches.eq_singleton hsame
    refine ⟨anchorRef, tokenEst, ?_⟩
    rwa [List.flatten_singleton]
  · rintro ⟨anchorRef, tokenEst, hanswer⟩
    exact ⟨[matching], .last hanswer, List.flatten_singleton⟩

end

/-! ### The first page -/

theorem encodeCursor_ne_nil {n : Int64} (h : 0 < n) : encodeCursor n ≠ [] := by
  rw [encodeCursor, if_neg (Int64.not_le.mpr h)]
  exact nofun

section

variable {T : Type} {P : SqlPlatform T} {p : SqlMemoryNodeProvider T} {frame : QueryFrame T}
  {matching : List (GoDict T)}

theorem toInt64_neg_iff (n : UInt64) : n.toInt64 < 0 ↔ 2 ^ 63 ≤ n.toNat := by
  have hlt := n.toNat_lt
  rw [Int64.lt_iff_toInt_lt, toInt_toInt64, Int64.toInt_zero]
  by_cases hlarge : 2 ^ 63 ≤ n.toNat
  · rw [Int.bmod_def]
    omega
  · rw [Int.bmod_def]
    omega

theorem toNat_toInt64 {n : UInt64} (h : n.toNat < 2 ^ 63) : n.toInt64.toInt.toNat = n.toNat := by
  rw [toInt_toInt64, Int.bmod_eq_of_le (by omega) (by omega), Int.toNat_natCast]

section

variable (hserves : SqlMemoryNodeProvider.Serves P p frame matching) (hcursor : frame.cursor = none)
include hserves hcursor

theorem query_error
    (hlimit : 2 ^ 63 ≤ (p.pageLimit frame).toNat) (opts : MemoryNodeOptions) :
    ∃ err, p.query P frame opts = .error err := by
  obtain ⟨namedSQL, params, hbuild, hrows⟩ := hserves none
  have hframe : ({ frame with cursor := none } : QueryFrame T) = frame := by rw [← hcursor]
  rw [hframe] at hbuild
  rw [if_pos (.inl ((toInt64_neg_iff _).mpr hlimit))] at hrows
  obtain ⟨err, herr⟩ := hrows
  refine ⟨err, ?_⟩
  rw [query, hbuild]
  dsimp only
  rw [herr]

theorem query_ok
    (hlimit : (p.pageLimit frame).toNat < 2 ^ 63) (opts : MemoryNodeOptions) :
    ∃ cursor, p.query P frame opts = .ok ⟨matching.take (p.pageLimit frame).toNat, cursor⟩ ∧
      (cursor = [] ↔ matching.length < (p.pageLimit frame).toNat) := by
  obtain ⟨namedSQL, params, hbuild, hrows⟩ := hserves none
  have hframe : ({ frame with cursor := none } : QueryFrame T) = frame := by rw [← hcursor]
  rw [hframe] at hbuild
  have hpage : ¬ ((p.pageLimit frame).toInt64 < 0 ∨ decodeCursor ((none : Option GoString).getD []) < 0) := by
    rw [toInt64_neg_iff]
    rintro (hlarge | hneg)
    · omega
    · exact absurd hneg (by decide)
  rw [if_neg hpage, toNat_toInt64 hlimit] at hrows
  refine ⟨p.nextCursor frame (matching.take (p.pageLimit frame).toNat), ?_, ?_⟩
  · rw [query, hbuild]
    dsimp only
    rw [hrows]
    rfl
  · have hpos : 0 < (p.pageLimit frame).toNat := UInt64.lt_iff_toNat_lt.mp (pageLimit_pos frame)
    have hfull : UInt64.ofNat (matching.take (p.pageLimit frame).toNat).length = p.pageLimit frame ↔
        (p.pageLimit frame).toNat ≤ matching.length := by
      rw [← UInt64.toNat_inj, UInt64.toNat_ofNat', List.length_take]
      omega
    have hcursor : encodeCursor (decodeCursor (frameCursor frame) + (p.pageLimit frame).toInt64) ≠ [] := by
      rw [frameCursor, hcursor]
      change encodeCursor (0 + (p.pageLimit frame).toInt64) ≠ []
      apply encodeCursor_ne_nil
      rw [Int64.zero_add, Int64.lt_iff_toInt_lt, toInt_toInt64, Int64.toInt_zero,
        Int.bmod_eq_of_le (by omega) (by omega)]
      omega
    rw [nextCursor]
    by_cases hlarge : (p.pageLimit frame).toNat ≤ matching.length
    · rw [if_pos (hfull.mpr hlarge)]
      exact iff_of_false hcursor (by omega)
    · rw [if_neg (mt hfull.mp hlarge)]
      exact iff_of_true rfl (by omega)

/-! ### Completeness -/

end

variable (P p) in
def sqlAnswer (server : MemoryNodeServer) (budgetHeader : GoString) (d : GoDict T) : QueryAnswer T :=
  answerQuery P.toPlatform server (p.query P) budgetHeader d

/-- Rows of a page that cannot be written, or are trimmed, do not all reach the client. -/
theorem caps_iff {server : MemoryNodeServer} {provider : MemoryNodeProvider T} {budgetHeader : GoString}
    {d : GoDict T} {result : MemoryNodeQueryResult T}
    (h : provider (queryFrameFromJSON P.toPlatform d server.opts) server.opts = .ok result)
    (rows : List (GoDict T)) (cursor : GoString) : (∃ anchorRef tokenEst,
        answerQuery P.toPlatform server provider budgetHeader d = .caps anchorRef rows cursor tokenEst) ↔
      (budgeted P.toPlatform server budgetHeader result.rows).1 = rows ∧ result.nextCursor = cursor ∧
        (toJson P.toPlatform (.maps (rows.map .ofMap))).isSome = true := by
  rw [answerQuery, h]
  dsimp only
  split
  case h_1 v hjson =>
    constructor
    · rintro ⟨_, _, hcaps⟩
      cases hcaps
      exact ⟨rfl, rfl, by rw [hjson]; rfl⟩
    · rintro ⟨rfl, rfl, -⟩
      exact ⟨_, _, rfl⟩
  case h_2 hjson =>
    constructor
    · rintro ⟨_, _, hcaps⟩
      cases hcaps
    · rintro ⟨rfl, rfl, hsome⟩
      rw [hjson] at hsome
      cases hsome

/-- The client gets all rows if and only if they are fewer than a page holds, can be written and fit into
the budget. -/
theorem fetchesAll_sqlAnswer_iff (server : MemoryNodeServer) (budgetHeader : GoString) (d : GoDict T)
    (hserves : SqlMemoryNodeProvider.Serves P p (queryFrameFromJSON P.toPlatform d server.opts) matching) :
    FetchesAll (sqlAnswer P p server budgetHeader) d matching ↔
      (matching.length < (p.pageLimit (queryFrameFromJSON P.toPlatform d server.opts)).toNat ∧
        (p.pageLimit (queryFrameFromJSON P.toPlatform d server.opts)).toNat < 2 ^ 63) ∧
        (toJson P.toPlatform (.maps (matching.map .ofMap))).isSome = true ∧
        Fits P.toPlatform (serverBudget server budgetHeader) matching := by
  have hsame : ∀ d v, sqlAnswer P p server budgetHeader (d.insert "cursor" v) =
      sqlAnswer P p server budgetHeader d := fun d v => answerQuery_insert_cursor server _ budgetHeader d v
  rw [fetchesAll_iff hsame]
  by_cases hlimit : (p.pageLimit (queryFrameFromJSON P.toPlatform d server.opts)).toNat < 2 ^ 63
  · obtain ⟨cursor, hquery, hcursor⟩ := query_ok hserves rfl hlimit server.opts
    rw [sqlAnswer, caps_iff hquery]
    rw [hcursor]
    constructor
    · rintro ⟨hrows, hlength, hjson⟩
      rw [List.take_of_length_le hlength.le, budgeted_eq_self_iff] at hrows
      exact ⟨⟨hlength, hlimit⟩, hjson, hrows⟩
    · rintro ⟨⟨hlength, -⟩, hjson, hfits⟩
      rw [List.take_of_length_le hlength.le, budgeted_eq_self_iff]
      exact ⟨hfits, hlength, hjson⟩
  · obtain ⟨err, hquery⟩ := query_error hserves rfl (Nat.le_of_not_lt hlimit) server.opts
    rw [sqlAnswer, answerQuery, hquery]
    refine iff_of_false ?_ fun h => hlimit h.1.2
    rintro ⟨_, _, hcaps⟩
    cases hcaps

end

/-! ### Small tables -/

variable (table : List (GoDict Empty))

/-- The database of a table without a filter: it reads the page from the last two arguments. -/
def tableExecutor : SqlExecutor Empty := fun _ args =>
  match args.reverse with
  | .int _ offset :: .int _ limit :: _ =>
    if limit.1 < 0 ∨ offset.1 < 0 then .error "negative page"
    else .ok ((table.drop offset.1.toNat).take limit.1.toNat)
  | _ => .error "no page"

def tableProvider : SqlMemoryNodeProvider Empty :=
  newSqlMemoryNodeProvider itemsSchema .postgreSql (tableExecutor table) ⟨0, 0⟩

def oneRow : List (GoDict Empty) := [.ofList [("id", .string "a")]]

def oneRowProvider : SqlMemoryNodeProvider Empty := tableProvider oneRow

def threeRows : List (GoDict Empty) := ["a", "b", "c"].map fun id => .ofList [("id", .string id)]

def plainServer : MemoryNodeServer := newMemoryNodeServer ⟨0, 0, 0⟩ []

def pageRequest (size : Int) : GoDict Empty := Std.ExtTreeMap.insert ∅ "limit" (.float64 (F64.ofInt size))

theorem get_pageRequest (size : Int) (key : String) (h : "limit" ≠ key) : GoDict.get (pageRequest size) key = .nil := by
  rw [GoDict.get, pageRequest, GoMap.getElem?_insert_ne _ _ _ _ h]
  rfl

def allItems : Sql.Text :=
  statementText itemsSchema .postgreSql [.identifier "id", .fixed ", ", .identifier "unit_price"] [] [.identifier "id"]

theorem buildText_allItems (limit : UInt64) (cursor : GoString) (options : SqlQueryOptions) :
    buildText plainSqlPlatform itemsSchema .postgreSql [] .nil [] limit cursor options =
      .ok (allItems, pageParams (effectiveLimit limit options).toInt64 (decodeCursor cursor)) := by
  have hselect : buildSelectList plainSqlPlatform itemsSchema [] =
      .ok [.identifier "id", .fixed ", ", .identifier "unit_price"] := rfl
  rw [buildText, hselect]
  rfl

theorem composed_allItems : Sql.Composed allItems := by
  have hbuild : buildQueryText plainSqlPlatform itemsSchema .postgreSql ⟨20, 1000⟩ emptyQuery = .ok (allItems, _) :=
    buildText_allItems 0 [] ⟨20, 1000⟩
  exact composed_buildQueryText hbuild

theorem rebindNamedParams_allItems (limit offset : Int64) : (rebindNamedParams (pageParams limit offset) .postgreSql
      (Sql.spell DatabaseDialect.postgreSql.quoting allItems)).2 =
        [(intValue limit : GoAny Empty), intValue offset] := by
  have hnames : ∀ name ∈ Sql.identifiers allItems, .char '@' ∉ name := by decide +kernel
  have hvalue : ∀ name ∈ Sql.parameters allItems, byName (pageParams limit offset : List (NwpSqlParam Empty)) name =
      some (if name = "_limit" then intValue limit else intValue offset) :=
    List.forall_mem_cons.mpr ⟨rfl, List.forall_mem_singleton.mpr rfl⟩
  have hwalk := rebindFrom_spell (pageParams limit offset) .postgreSql
    (fun name => if name = "_limit" then intValue limit else intValue offset) composed_allItems
    (quoting_reserved .postgreSql) hnames hvalue 0
  rw [rebindNamedParams, hwalk]
  rfl

theorem buildQuerySQL_allItems {frame : QueryFrame Empty} (options : SqlQueryOptions) (hfields : frame.fields = none)
    (hfilter : frame.filter = .nil) (horder : frame.order = .nil) :
    buildQuerySQL plainSqlPlatform itemsSchema .postgreSql options frame =
      .ok (Sql.spell DatabaseDialect.postgreSql.quoting allItems,
        pageParams (effectiveLimit (frameLimit frame) options).toInt64 (decodeCursor (frameCursor frame))) := by
  rw [buildQuerySQL, hfields, hfilter, horder]
  exact bind_eq_ok_iff.mpr ⟨_, buildText_allItems _ _ _, rfl⟩

theorem tableExecutor_allItems (limit offset : Int64) :
    let statement := rebindNamedParams (pageParams limit offset) .postgreSql
      (Sql.spell DatabaseDialect.postgreSql.quoting allItems)
    tableExecutor table statement.1 statement.2 =
      if limit < 0 ∨ offset < 0 then .error "negative page"
      else .ok ((table.drop offset.toInt.toNat).take limit.toInt.toNat) := by
  dsimp only
  rw [rebindNamedParams_allItems]
  simp only [Int64.lt_iff_toInt_lt]
  rfl

theorem serves_table (size : Int) : SqlMemoryNodeProvider.Serves plainSqlPlatform
    (tableProvider table) (queryFrameFromJSON plainPlatform (pageRequest size) plainServer.opts) table := by
  intro cursor
  generalize hframe : queryFrameFromJSON plainPlatform (pageRequest size) plainServer.opts = frame
  have hfields : frame.fields = none := hframe ▸ rfl
  have hfilter : frame.filter = .nil := hframe ▸ get_pageRequest size "filter" (by decide)
  have horder : frame.order = .nil := hframe ▸ get_pageRequest size "order" (by decide)
  refine ⟨_, _, buildQuerySQL_allItems (tableProvider table).options hfields hfilter horder, ?_⟩
  have hrows := tableExecutor_allItems table ((tableProvider table).pageLimit frame).toInt64
    (decodeCursor (cursor.getD []))
  dsimp only at hrows ⊢
  split
  case isTrue hnegative => exact ⟨"negative page", hrows.trans (if_pos hnegative)⟩
  case isFalse hpage => exact hrows.trans (if_neg hpage)

/-- A page that holds more than the rows, and a budget that they use up. -/
theorem threeRows_fetched :
    FetchesAll (sqlAnswer plainSqlPlatform (tableProvider threeRows) plainServer "9") (pageRequest 4) threeRows := by
  refine (fetchesAll_sqlAnswer_iff plainServer "9" (pageRequest 4) (serves_table threeRows 4)).mpr
    ⟨⟨?_, ?_⟩, ?_, .inr (.inl ?_)⟩
  · decide +kernel
  · decide +kernel
  · rfl
  · decide +kernel

/-- A page that the row fills: the cursor that comes with it is not read, and the page comes again. -/
theorem oneRow_never_fetched : SqlMemoryNodeProvider.Serves plainSqlPlatform oneRowProvider
        (queryFrameFromJSON plainPlatform (pageRequest 1) plainServer.opts) oneRow ∧
      ¬ FetchesAll (sqlAnswer plainSqlPlatform oneRowProvider plainServer []) (pageRequest 1) oneRow := by
  refine ⟨serves_table oneRow 1, ?_⟩
  have hlimit : oneRowProvider.pageLimit (queryFrameFromJSON plainPlatform (pageRequest 1) plainServer.opts) = 1 := by
    decide +kernel
  intro hfetches
  have hcaps := (fetchesAll_iff (fun d v => answerQuery_insert_cursor plainServer _ [] d v) _ _).mp hfetches
  obtain ⟨cursor, hquery, hcursor⟩ := query_ok (p := oneRowProvider) (serves_table oneRow 1) rfl
    (by rw [hlimit]; decide) plainServer.opts
  have hempty := ((caps_iff hquery oneRow []).mp hcaps).2.1
  rw [hcursor] at hempty
  exact absurd hempty (by decide)

end NpsSdk.Nwp
