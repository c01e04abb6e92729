import NpsSdk.NwpMemoryNodeServer
import NpsSdk.NwpRebindParams

/-! The SQL provider of a memory node. A page that is full comes with the cursor of the next one. -/

open NpsSdk.Core

namespace NpsSdk.Nwp

/-- `QueryRows`: the rows of a statement with its arguments. -/
abbrev SqlExecutor (T : Type) := GoString → List (GoAny T) → Except GoString (List (GoDict T))

/-- A provider, with the limits that are there when none was given. -/
structure SqlMemoryNodeProvider (T : Type) where
  schema : SqlMemoryNodeSchema
  dialect : DatabaseDialect
  executor : SqlExecutor T
  options : SqlQueryOptions
  defaultLimit_pos : 0 < options.defaultLimit
  maxLimit_pos : 0 < options.maxLimit

def newSqlMemoryNodeProvider {T : Type} (schema : SqlMemoryNodeSchema) (dialect : DatabaseDialect)
    (executor : SqlExecutor T) (options : SqlQueryOptions) : SqlMemoryNodeProvider T where
  schema := schema
  dialect := dialect
  executor := executor
  options := ⟨limitOrDefault options.defaultLimit 20, limitOrDefault options.maxLimit 1000⟩
  defaultLimit_pos := limitOrDefault_pos (by decide)
  maxLimit_pos := limitOrDefault_pos (by decide)

namespace SqlMemoryNodeProvider

variable {T : Type} (P : SqlPlatform T) (p : SqlMemoryNodeProvider T)

def pageLimit (frame : QueryFrame T) : UInt64 := effectiveLimit (frameLimit frame) p.options

def nextCursor (frame : QueryFrame T) (rows : List (GoDict T)) : GoString :=
  if UInt64.ofNat rows.length = p.pageLimit frame then
    encodeCursor (decodeCursor (frameCursor frame) + (p.pageLimit frame).toInt64)
  else []

def query : MemoryNodeProvider T := fun frame _ =>
  match buildQuerySQL P p.schema p.dialect p.options frame with
  | .error err => .error err.message
  | .ok (namedSQL, params) =>
    let (sqlText, args) := rebindNamedParams params p.dialect namedSQL
    match p.executor sqlText args with
    | .error err => .error err
    | .ok rows => .ok ⟨rows, p.nextCursor frame rows⟩

variable {p}

theorem pageLimit_pos (frame : QueryFrame T) : 0 < p.pageLimit frame := by
  have hlimit : 0 < if frameLimit frame = 0 then p.options.defaultLimit else frameLimit frame := by
    split
    case isTrue => exact p.defaultLimit_pos
    case isFalse hne => exact UInt64.pos_iff_ne_zero.mpr hne
  rw [pageLimit, effectiveLimit]
  by_cases hover : 0 < p.options.maxLimit ∧
      p.options.maxLimit < if frameLimit frame = 0 then p.options.defaultLimit else frameLimit frame
  · rw [if_pos hover]
    exact p.maxLimit_pos
  · rw [if_neg hover]
    exact hlimit

/-- The database answers the statements of a query, with any cursor, by the pages of one list of rows; it
refuses a page of a negative size or place. -/
def Serves (P : SqlPlatform T) (p : SqlMemoryNodeProvider T) (frame : QueryFrame T)
    (matching : List (GoDict T)) : Prop :=
  ∀ cursor, ∃ namedSQL params,
    buildQuerySQL P p.schema p.dialect p.options { frame with cursor := cursor } = .ok (namedSQL, params) ∧
      let statement := rebindNamedParams params p.dialect namedSQL
      let limit := (p.pageLimit frame).toInt64
      let offset := decodeCursor (cursor.getD [])
      if limit < 0 ∨ offset < 0 then ∃ err, p.executor statement.1 statement.2 = .error err
      else p.executor statement.1 statement.2 = .ok ((matching.drop offset.toInt.toNat).take limit.toInt.toNat)

end SqlMemoryNodeProvider

end NpsSdk.Nwp
