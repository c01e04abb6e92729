import NpsSdk.Base64
import NpsSdk.JsonDecode
import NpsSdk.NwpFilterTranslator
import NpsSdk.NwpFrames

/-! The query of a memory node as an SQL statement: what is selected, the translated filter, the order
and the page. Names that a client sends are looked up in the schema, and only names of the schema are
quoted. -/

open NpsSdk.Core

namespace NpsSdk.Nwp

open GoString

structure SqlQueryOptions where
  defaultLimit : UInt64
  maxLimit : UInt64

structure SqlOrderClause where
  field : GoString
  dir : GoString
  deriving DecidableEq

/-! ### The cursor -/

/-- The text of a cursor is a JSON object with the offset of the next row. -/
def encodeCursor (nextOffset : Int64) : GoString :=
  if nextOffset ≤ 0 then []
  else
    let raw : GoString := "\x7b\"o\":" ++ ofChars (intText nextOffset.toInt) ++ "\x7d"
    ofAscii (Base64.encodeRawURL (bytes raw))

/-- A field of type `json.Number` takes a number, and a string that spells one. -/
def decodeNumberText (current : GoString) : JsonValue JsonNumber → Option GoString
  | .number n => some (ofChars n.1)
  | .string s => if isValidNumber (toChars s) then some s else none
  | .null => some current
  | _ => none

/-- The offset of a cursor; zero for anything that is none. Padding is tolerated. -/
def decodeCursor (cursor : GoString) : Int64 :=
  if cursor = [] then 0
  else
    let src := bytes cursor
    let offset := do
      let data ← Base64.decodeString Base64.rawURLEncoding src <|> Base64.decodeString Base64.urlEncoding src
      let doc ← JsonValue.unmarshal jsonNumber (ofBytes data)
      let text ← JsonValue.decodeStruct
        (fun o key v => if JsonValue.isField "o" key then decodeNumberText o v else some o) [] doc
      parseInt text
    offset.getD 0

/-! ### The statement -/

section

variable {T : Type} (P : SqlPlatform T) (schema : SqlMemoryNodeSchema) (dialect : DatabaseDialect)

def intValue (n : Int64) : GoAny T :=
  .int .int ⟨n.toInt, IntKind.holds_int_toInt n⟩

def unknownField (name : GoString) : NwpFilterError := ⟨"Unknown field '" ++ name ++ "'.", errQueryFieldUnknown⟩

/-- The column, and the field's own name for it where the two differ. -/
def selectPart (f : SqlMemoryNodeField) : Sql.Text :=
  .identifier f.resolvedColumnName ::
    if f.columnName ≠ [] then [.fixed " AS ", .identifier f.name] else []

/-- Without a list of fields all of the schema are selected. -/
def buildSelectList (fields : List GoString) : Except NwpFilterError Sql.Text :=
  if fields = [] then
    .ok (Sql.join ", " (schema.fields.map fun f => [.identifier f.resolvedColumnName]))
  else do
    let found ← fields.mapM fun name =>
      match schema.getField P name with
      | some f => .ok f
      | none => .error (unknownField name)
    .ok (Sql.join ", " (found.map selectPart))

def orderPart (o : SqlOrderClause) : Except NwpFilterError Sql.Text :=
  match schema.getField P o.field with
  | none => .error ⟨"Unknown order field '" ++ o.field ++ "'.", errQueryFieldUnknown⟩
  | some f =>
    let dir : GoString := if equalFold P o.dir "DESC" then " DESC" else " ASC"
    .ok [.identifier f.resolvedColumnName, .fixed dir]

def buildOrderBy (order : List SqlOrderClause) : Except NwpFilterError Sql.Text := do
  let parts ← order.mapM (orderPart P schema)
  .ok (Sql.join ", " parts)

def effectiveLimit (frameLimit : UInt64) (options : SqlQueryOptions) : UInt64 :=
  let limit := if frameLimit = 0 then options.defaultLimit else frameLimit
  if 0 < options.maxLimit ∧ options.maxLimit < limit then options.maxLimit else limit

def pagination : Sql.Text :=
  match dialect with
  | .sqlServer => [.fixed " OFFSET ", .parameter "_offset", .fixed " ROWS FETCH NEXT ",
      .parameter "_limit", .fixed " ROWS ONLY"]
  | .postgreSql => [.fixed " LIMIT ", .parameter "_limit", .fixed " OFFSET ", .parameter "_offset"]

def whereText (condition : Sql.Text) : Sql.Text :=
  if Sql.spell dialect.quoting condition = [] then [] else .fixed " WHERE " :: condition

/-- Rows come in the order of the primary key unless another is asked for. -/
def orderText (order : List SqlOrderClause) : Except NwpFilterError Sql.Text :=
  if order = [] then .ok [.identifier schema.primaryKey] else buildOrderBy P schema order

def statementText (selectList condition orderBy : Sql.Text) : Sql.Text :=
  .fixed "SELECT " :: (selectList ++ .fixed " FROM " :: .identifier schema.tableName ::
    (whereText dialect condition ++ .fixed " ORDER BY " :: (orderBy ++ pagination dialect)))

def pageParams (limit offset : Int64) : List (NwpSqlParam T) :=
  [⟨"_limit", intValue limit⟩, ⟨"_offset", intValue offset⟩]

def buildText (fields : List GoString) (filter : GoAny T) (order : List SqlOrderClause) (frameLimit : UInt64)
    (cursor : GoString) (options : SqlQueryOptions) :
    Except NwpFilterError (Sql.Text × List (NwpSqlParam T)) := do
  let limit := effectiveLimit frameLimit options
  let offset := decodeCursor cursor
  let selectList ← buildSelectList P schema fields
  let (condition, t) ← translateText P schema dialect filter
  let orderBy ← orderText P schema order
  .ok (statementText schema dialect selectList condition orderBy, t.params ++ pageParams limit.toInt64 offset)

def build (fields : List GoString) (filter : GoAny T) (order : List SqlOrderClause) (frameLimit : UInt64)
    (cursor : GoString) (options : SqlQueryOptions) :
    Except NwpFilterError (GoString × List (NwpSqlParam T)) := do
  let (text, params) ← buildText P schema dialect fields filter order frameLimit cursor options
  .ok (Sql.spell dialect.quoting text, params)

/-- The clause an entry of `order` stands for; one without a field is skipped. -/
def orderClauseOf (m : GoDict T) : Option SqlOrderClause :=
  let field := GoDict.str m "field"
  if field = [] then none else some ⟨field, GoDict.str m "dir"⟩

def orderClausesFromJSON : GoAny T → List SqlOrderClause
  | .slice items => items.filterMap fun item => item.asMap.bind orderClauseOf
  | v => (v.asMap.bind orderClauseOf).toList

def frameLimit (f : QueryFrame T) : UInt64 := f.limit.getD 0

def frameCursor (f : QueryFrame T) : GoString := f.cursor.getD []

/-- `BuildQuerySQL` before the pieces are put together. -/
def buildQueryText (options : SqlQueryOptions) (frame : QueryFrame T) :
    Except NwpFilterError (Sql.Text × List (NwpSqlParam T)) :=
  buildText P schema dialect (frame.fields.getD []) frame.filter (orderClausesFromJSON frame.order)
    (frameLimit frame) (frameCursor frame) options

def buildQuerySQL (options : SqlQueryOptions) (frame : QueryFrame T) :
    Except NwpFilterError (GoString × List (NwpSqlParam T)) :=
  build P schema dialect (frame.fields.getD []) frame.filter (orderClausesFromJSON frame.order)
    (frameLimit frame) (frameCursor frame) options

end

end NpsSdk.Nwp
