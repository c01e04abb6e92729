import NpsSdk.GoEncoding
import NpsSdk.SqlText

/-! The translation of filters to SQL. A filter is an object whose members are logical operators or
fields of the schema with the operators applied to them; each member becomes a clause, and the clauses
are joined. Operands never enter the text: each becomes a parameter, numbered in the order in which the
members are met. -/

open NpsSdk.Core

namespace NpsSdk

namespace GoAny

variable {T : Type}

mutual

/-- The value with the members of every map written down in the order of their names. -/
def ordered : GoAny T → GoAny T
  | .map fields => .ofMap (.ofList (orderedFields fields))
  | .slice items => .slice (orderedItems items)
  | .maps items => .maps (orderedItems items)
  | v => v

def orderedItems : List (GoAny T) → List (GoAny T)
  | [] => []
  | v :: items => ordered v :: orderedItems items

def orderedFields : List (String × GoAny T) → List (String × GoAny T)
  | [] => []
  | (key, v) :: fields => (key, ordered v) :: orderedFields fields

end

end GoAny

namespace Nwp

def errQueryFilterInvalid : GoString := "NWP-QUERY-FILTER-INVALID"
def errQueryFieldUnknown : GoString := "NWP-QUERY-FIELD-UNKNOWN"

inductive DatabaseDialect where
  | sqlServer
  | postgreSql
  deriving DecidableEq

/-- `quoteColumn` and `quoteTable` put a name between these and change nothing in it. -/
def DatabaseDialect.quoting : DatabaseDialect → Sql.Quoting
  | .sqlServer => ⟨'[', ']'⟩
  | .postgreSql => ⟨'"', '"'⟩

structure SqlMemoryNodeField where
  name : GoString
  columnName : GoString := []
  deriving DecidableEq

def SqlMemoryNodeField.resolvedColumnName (f : SqlMemoryNodeField) : GoString :=
  if f.columnName ≠ [] then f.columnName else f.name

structure SqlMemoryNodeSchema where
  tableName : GoString
  primaryKey : GoString
  fields : List SqlMemoryNodeField
  deriving DecidableEq

structure NwpFilterError where
  message : GoString
  nwpErrorCode : GoString
  deriving DecidableEq

/-- What the translation takes from the library: the character that stands for all that differ from it
by case only, `strconv.ParseFloat`, and how values other than strings are printed by `%v`. -/
structure SqlPlatform (T : Type) extends Platform T where
  foldChar : Char → Char
  parseFloatText : GoString → Option F64
  printOther : GoAny T → GoString

section Translator

variable {T : Type} (P : SqlPlatform T)

def equalFold (s t : GoString) : Bool :=
  (GoString.toChars s).map P.foldChar = (GoString.toChars t).map P.foldChar

def SqlMemoryNodeSchema.getField (schema : SqlMemoryNodeSchema) (name : GoString) : Option SqlMemoryNodeField :=
  schema.fields.find? fun f => equalFold P f.name name

/-- A parameter that stands for a list holds a slice. -/
structure NwpSqlParam (T : Type) where
  name : GoString
  value : GoAny T

structure TranslatorState (T : Type) where
  paramIndex : Nat
  params : List (NwpSqlParam T)

def paramName (index : Nat) : GoString := GoString.ofChars ('p' :: intText index)

def TranslatorState.withParam (t : TranslatorState T) (value : GoAny T) : TranslatorState T :=
  ⟨t.paramIndex + 1, t.params ++ [⟨paramName t.paramIndex, value⟩]⟩

def filterInvalid (message : GoString) : NwpFilterError := ⟨message, errQueryFilterInvalid⟩

/-- Two numbers that Go's `==` takes for the same; the zeros have different bits. -/
def sameFloat (x y : F64) : Bool := x.isFinite && y.isFinite && (x = y || (x.isZero && y.isZero))

def extractValue : GoAny T → GoAny T
  | .float64 x =>
    if sameFloat x (F64.ofInt (P.int64OfFloat x).toInt) then .int64 (P.int64OfFloat x) else .float64 x
  | .number text =>
    match parseInt text with
    | some n => .int64 n
    | none =>
      match P.parseFloatText text with
      | some x => .float64 x
      | none => .string text
  | v => v

/-- `fmt.Sprintf("%v", v)`. -/
def printed : GoAny T → GoString
  | .string s => s
  | v => P.printOther v

/-! ### The operators of a field -/

def buildSimple (col : GoString) (op : String) (fieldName : GoString) (value : GoAny T)
    (t : TranslatorState T) : Except NwpFilterError (Sql.Text × TranslatorState T) :=
  let v := extractValue P value
  let clause (operator : GoString) (v : GoAny T) : Except NwpFilterError (Sql.Text × TranslatorState T) :=
    .ok ([.identifier col, .fixed operator, .parameter (paramName t.paramIndex)], t.withParam v)
  match op with
  | "$eq" => clause " = " v
  | "$ne" => clause " <> " v
  | "$lt" => clause " < " v
  | "$lte" => clause " <= " v
  | "$gt" => clause " > " v
  | "$gte" => clause " >= " v
  | "$contains" => clause " LIKE " (.string ("%" ++ printed P v ++ "%"))
  | _ => .error (filterInvalid
      ("Unknown filter operator '" ++ (op : GoString) ++ "' on field '" ++ fieldName ++ "'."))

def asSlice : GoAny T → Option (List (GoAny T))
  | .slice items => some items
  | .nilOf .slice => some []
  | _ => none

/-- An empty list has no parameter: nothing is in it. -/
def buildIn (col : GoString) (arr : GoAny T) (negate : Bool) (t : TranslatorState T) :
    Except NwpFilterError (Sql.Text × TranslatorState T) :=
  match asSlice arr with
  | none => .error (filterInvalid "$in/$nin requires an array value.")
  | some [] => .ok ([.fixed (if negate then ("1=1" : GoString) else "1=0")], t)
  | some items =>
    .ok ([.identifier col, .fixed (if negate then (" NOT IN " : GoString) else " IN "),
      .parameter (paramName t.paramIndex)], t.withParam (.slice (items.map (extractValue P))))

def buildBetween (col : GoString) (arr : GoAny T) (t : TranslatorState T) :
    Except NwpFilterError (Sql.Text × TranslatorState T) :=
  match asSlice arr with
  | some [low, high] =>
    .ok ([.identifier col, .fixed " BETWEEN ", .parameter (paramName t.paramIndex), .fixed " AND ",
      .parameter (paramName (t.paramIndex + 1))],
      (t.withParam (extractValue P low)).withParam (extractValue P high))
  | _ => .error (filterInvalid "$between requires an array of exactly two values [low, high].")

def buildOperator (field : SqlMemoryNodeField) (op : String) (value : GoAny T) (t : TranslatorState T) :
    Except NwpFilterError (Sql.Text × TranslatorState T) :=
  let col := field.resolvedColumnName
  match op with
  | "$in" => buildIn P col value false t
  | "$nin" => buildIn P col value true t
  | "$between" => buildBetween P col value t
  | op => buildSimple P col op field.name value t

def buildOperators (field : SqlMemoryNodeField) :
    List (String × GoAny T) → TranslatorState T → Except NwpFilterError (List Sql.Text × TranslatorState T)
  | [], t => .ok ([], t)
  | (op, value) :: ops, t => do
      let (clause, t) ← buildOperator P field op value t
      let (clauses, t) ← buildOperators field ops t
      .ok (clause :: clauses, t)

/-- One clause stands alone; no clause at all gives empty parentheses. -/
def joinOperators : List Sql.Text → Sql.Text
  | [clause] => clause
  | clauses => Sql.group " AND " clauses

def buildFieldCondition (field : SqlMemoryNodeField) (condition : GoAny T) (t : TranslatorState T) :
    Except NwpFilterError (Sql.Text × TranslatorState T) :=
  match condition with
  | .map ops => do
      let (clauses, t) ← buildOperators P field ops t
      .ok (joinOperators clauses, t)
  | .nilOf .map => .ok (joinOperators [], t)
  | _ => .error (filterInvalid ("Field '" ++ field.name ++
      "' condition must be an object (e.g. \x7b\"$eq\": value\x7d)."))

/-! ### Objects and logical operators -/

variable (schema : SqlMemoryNodeSchema) (dialect : DatabaseDialect)

def validateField (name : GoString) : Except NwpFilterError SqlMemoryNodeField :=
  match schema.getField P name with
  | some field => .ok field
  | none => .error ⟨"Unknown field '" ++ name ++ "'.", errQueryFieldUnknown⟩

def buildField (name : String) (val : GoAny T) (t : TranslatorState T) :
    Except NwpFilterError (Sql.Text × TranslatorState T) := do
  let field ← validateField P schema name
  buildFieldCondition P field val t

def isLogical (name : String) : Bool := name.toList.head? = some '$'

/-- One clause stands alone, and several are put in parentheses, empty ones too. -/
def joinClauses (separator : GoString) : List Sql.Text → Sql.Text
  | [] => []
  | [clause] => clause
  | clauses => Sql.group separator clauses

/-- An empty clause is not negated. -/
def negateClause (inner : Sql.Text) : Sql.Text :=
  if Sql.spell dialect.quoting inner = [] then [] else .fixed "NOT (" :: (inner ++ [.fixed ")"])

def logicalSeparator (op : String) : Except NwpFilterError GoString :=
  match op with
  | "$and" => .ok " AND "
  | "$or" => .ok " OR "
  | _ => .error (filterInvalid ("Unknown logical operator '" ++ (op : GoString) ++ "'."))

mutual

def buildMembers : List (String × GoAny T) → TranslatorState T →
    Except NwpFilterError (List Sql.Text × TranslatorState T)
  | [], t => .ok ([], t)
  | (name, val) :: fields, t => do
      let (clause, t) ← (if isLogical name then buildLogical name val t else buildField P schema name val t)
      let (clauses, t) ← buildMembers fields t
      .ok (clause :: clauses, t)

def buildLogical (op : String) : GoAny T → TranslatorState T →
    Except NwpFilterError (Sql.Text × TranslatorState T)
  | value, t =>
    if op = "$not" then
      match value with
      | .map sub => do
          let (clauses, t) ← buildMembers sub t
          .ok (negateClause dialect (joinClauses " AND " clauses), t)
      | .nilOf .map => .ok (negateClause dialect [], t)
      | _ => .error (filterInvalid ("Logical operator '" ++ (op : GoString) ++ "' requires an object value."))
    else do
      let separator ← logicalSeparator op
      match value with
      | .slice items => do
          let (parts, t) ← buildElements op items t
          .ok (joinClauses separator parts, t)
      | .nilOf .slice => .ok (joinClauses separator [], t)
      | _ => .error (filterInvalid ("Logical operator '" ++ (op : GoString) ++ "' requires an array value."))

/-- The parts of `$and` and `$or`; an empty part is dropped. -/
def buildElements (op : String) : List (GoAny T) → TranslatorState T →
    Except NwpFilterError (List Sql.Text × TranslatorState T)
  | [], t => .ok ([], t)
  | .map sub :: items, t => do
      let (clauses, t) ← buildMembers sub t
      let s := joinClauses " AND " clauses
      let (parts, t) ← buildElements op items t
      .ok (if Sql.spell dialect.quoting s = [] then parts else s :: parts, t)
  | .nilOf .map :: items, t => buildElements op items t
  | _ :: _, _ => .error (filterInvalid
      ("Logical operator '" ++ (op : GoString) ++ "' array elements must be objects."))

end

def buildObject (obj : List (String × GoAny T)) (t : TranslatorState T) :
    Except NwpFilterError (Sql.Text × TranslatorState T) := do
  let (clauses, t) ← buildMembers P schema dialect obj t
  .ok (joinClauses " AND " clauses, t)

/-- A filter that is no object is no filter. -/
def translateText (filter : GoAny T) : Except NwpFilterError (Sql.Text × TranslatorState T) :=
  match filter.ordered with
  | .map obj => buildObject P schema dialect obj ⟨0, []⟩
  | _ => .ok ([], ⟨0, []⟩)

def translate (filter : GoAny T) : Except NwpFilterError (GoString × List (NwpSqlParam T)) := do
  let (text, t) ← translateText P schema dialect filter
  .ok (Sql.spell dialect.quoting text, t.params)

/-! ### What is named -/

/-- The column of an operator; a test against an empty list names none. -/
def operatorColumns (field : SqlMemoryNodeField) (op : String) (value : GoAny T) : List GoString :=
  if (op = "$in" ∨ op = "$nin") ∧ (asSlice value).any (·.isEmpty) then [] else [field.resolvedColumnName]

def conditionColumns (field : SqlMemoryNodeField) : GoAny T → List GoString
  | .map ops => ops.flatMap fun (op, value) => operatorColumns field op value
  | _ => []

def fieldColumns (name : String) (val : GoAny T) : List GoString :=
  (schema.getField P name).elim [] fun field => conditionColumns field val

mutual

/-- The columns that the members of an object name, in order. -/
def memberColumns : List (String × GoAny T) → List GoString
  | [] => []
  | (name, val) :: fields =>
    (if isLogical name then logicalColumns val else fieldColumns P schema name val) ++ memberColumns fields

def logicalColumns : GoAny T → List GoString
  | .map sub => memberColumns sub
  | .slice items => elementColumns items
  | _ => []

def elementColumns : List (GoAny T) → List GoString
  | [] => []
  | .map sub :: items => memberColumns sub ++ elementColumns items
  | _ :: items => elementColumns items

end

/-- The columns that a filter names. -/
def filterColumns (filter : GoAny T) : List GoString :=
  match filter.ordered with
  | .map obj => memberColumns P schema obj
  | _ => []

/-! ### What is emitted -/

def SqlMemoryNodeSchema.columns : List GoString :=
  schema.fields.map SqlMemoryNodeField.resolvedColumnName

def operatorTexts : List GoString :=
  [" = ", " <> ", " < ", " <= ", " > ", " >= ", " LIKE ", " IN ", " NOT IN "]

/-- The clauses that the translation can emit between two of its states, and the columns they name. -/
inductive Emits : List GoString → TranslatorState T → List Sql.Text → TranslatorState T → Prop
  | nil (t : TranslatorState T) : Emits [] t [] t
  | empty {columns t t' rest} : Emits columns t rest t' → Emits columns t ([] :: rest) t'
  | constant {columns t t' rest} (negate : Bool) : Emits columns t rest t' →
      Emits columns t ([.fixed (if negate then ("1=1" : GoString) else "1=0")] :: rest) t'
  | simple {columns t t' rest operator} (col : GoString) (hop : operator ∈ operatorTexts) (value : GoAny T) :
      Emits columns (t.withParam value) rest t' → Emits (col :: columns) t
        ([.identifier col, .fixed operator, .parameter (paramName t.paramIndex)] :: rest) t'
  | between {columns t t' rest} (col : GoString) (low high : GoAny T) :
      Emits columns ((t.withParam low).withParam high) rest t' → Emits (col :: columns) t
        ([.identifier col, .fixed " BETWEEN ", .parameter (paramName t.paramIndex), .fixed " AND ",
          .parameter (paramName (t.paramIndex + 1))] :: rest) t'
  | group {columns columns' t t' t'' clauses rest} {separator : GoString}
      (hsep : separator = " AND " ∨ separator = " OR ") : Emits columns t clauses t' →
      Emits columns' t' rest t'' → Emits (columns ++ columns') t (Sql.group separator clauses :: rest) t''
  | negation {columns columns' t t' t'' inner rest} : Emits columns t [inner] t' → Emits columns' t' rest t'' →
      Emits (columns ++ columns') t ((.fixed "NOT (" :: (inner ++ [.fixed ")"])) :: rest) t''

section

variable {P schema dialect} {columns columns' : List GoString}

theorem Emits.append {t t' t'' : TranslatorState T} {clauses rest : List Sql.Text}
    (h : Emits columns t clauses t') (hrest : Emits columns' t' rest t'') :
    Emits (columns ++ columns') t (clauses ++ rest) t'' := by
  induction h with
  | nil t => exact hrest
  | empty _ ih => exact (ih hrest).empty
  | constant negate _ ih => exact (ih hrest).constant negate
  | simple col hop value _ ih => exact .simple col hop value (ih hrest)
  | between col low high _ ih => exact .between col low high (ih hrest)
  | group hsep hclauses _ _ ih =>
    rw [List.append_assoc]
    exact .group hsep hclauses (ih hrest)
  | negation hinner _ _ ih =>
    rw [List.append_assoc]
    exact .negation hinner (ih hrest)

variable {t t' : TranslatorState T} {clauses : List Sql.Text} {s : Sql.Text} {op : String}
  {field : SqlMemoryNodeField}

theorem emits_group {separator : GoString} (hsep : separator = " AND " ∨ separator = " OR ")
    (h : Emits columns t clauses t') : Emits columns t [Sql.group separator clauses] t' := by
  rw [← List.append_nil columns]
  exact .group hsep h (.nil t')

theorem emits_joinClauses {separator : GoString} (hsep : separator = " AND " ∨ separator = " OR ")
    (h : Emits columns t clauses t') : Emits columns t [joinClauses separator clauses] t' := by
  match clauses, h with
  | [], .nil t => exact .empty (.nil t)
  | [clause], h => exact h
  | _ :: _ :: _, h => exact emits_group hsep h

theorem emits_joinOperators (h : Emits columns t clauses t') : Emits columns t [joinOperators clauses] t' := by
  match clauses, h with
  | [clause], h => exact h
  | [], h | _ :: _ :: _, h => exact emits_group (.inl rfl) h

/-- Only the empty clause spells nothing; it has no parameters and names no column. -/
theorem Emits.drop {q : Sql.Quoting} {rest : List Sql.Text} (h : Emits columns t (s :: rest) t')
    (hs : Sql.spell q s = []) : Emits columns t rest t' := by
  cases h with
  | empty hrest => exact hrest
  | constant negate _ => cases negate <;> cases hs
  | simple | between | group | negation => cases hs

theorem emits_negateClause {inner : Sql.Text} (h : Emits columns t [inner] t') :
    Emits columns t [negateClause dialect inner] t' := by
  rw [negateClause]
  split
  case isTrue hempty => exact (h.drop hempty).empty
  case isFalse =>
    rw [← List.append_nil columns]
    exact .negation h (.nil t')

theorem emits_buildSimple {col fieldName : GoString} {value : GoAny T}
    (h : buildSimple P col op fieldName value t = .ok (s, t')) : Emits [col] t [s] t' := by
  unfold buildSimple at h
  split at h
  all_goals cases h
  all_goals exact .simple col (by decide) _ (.nil _)

theorem emits_buildIn {col : GoString} {arr : GoAny T} {negate : Bool}
    (h : buildIn P col arr negate t = .ok (s, t')) :
    Emits (if (asSlice arr).any (·.isEmpty) then [] else [col]) t [s] t' := by
  rw [buildIn] at h
  split at h
  case h_1 => cases h
  case h_2 hitems =>
    cases h
    rw [hitems]
    exact .constant negate (.nil _)
  case h_3 items hne hitems =>
    cases h
    rw [hitems, if_neg (by simpa using hne)]
    exact .simple col (by cases negate <;> decide) _ (.nil _)

theorem emits_buildBetween {col : GoString} {arr : GoAny T}
    (h : buildBetween P col arr t = .ok (s, t')) : Emits [col] t [s] t' := by
  rw [buildBetween] at h
  split at h
  · cases h
    exact .between col _ _ (.nil _)
  · cases h

theorem emits_buildOperator {value : GoAny T}
    (h : buildOperator P field op value t = .ok (s, t')) : Emits (operatorColumns field op value) t [s] t' := by
  unfold buildOperator at h
  unfold operatorColumns
  split at h
  · simpa using emits_buildIn h
  · simpa using emits_buildIn h
  · exact emits_buildBetween h
  · rename_i hin hnin _
    rw [if_neg fun hlist => hlist.1.elim hin hnin]
    exact emits_buildSimple h

theorem emits_buildOperators {ops : List (String × GoAny T)}
    (h : buildOperators P field ops t = .ok (clauses, t')) :
    Emits (conditionColumns field (.map ops)) t clauses t' := by
  induction ops generalizing t clauses with
  | nil =>
    cases h
    exact .nil _
  | cons member ops ih =>
    obtain ⟨⟨clause, t₁⟩, hclause, h⟩ := bind_eq_ok_iff.mp h
    obtain ⟨⟨rest, t₂⟩, hrest, h⟩ := bind_eq_ok_iff.mp h
    cases h
    exact (emits_buildOperator hclause).append (ih hrest)

theorem getField_of_validateField {name : GoString} (h : validateField P schema name = .ok field) :
    schema.getField P name = some field := by
  rw [validateField] at h
  split at h
  · rename_i hfound
    cases h
    exact hfound
  · cases h

theorem emits_buildField {name : String} {val : GoAny T}
    (h : buildField P schema name val t = .ok (s, t')) : Emits (fieldColumns P schema name val) t [s] t' := by
  obtain ⟨field, hfield, h⟩ := bind_eq_ok_iff.mp h
  rw [fieldColumns, getField_of_validateField hfield, Option.elim_some]
  rw [buildFieldCondition.eq_def] at h
  split at h
  · obtain ⟨⟨clauses, t₁⟩, hclauses, h⟩ := bind_eq_ok_iff.mp h
    cases h
    exact emits_joinOperators (emits_buildOperators hclauses)
  · cases h
    exact emits_joinOperators (.nil _)
  · cases h

theorem logicalSeparator_cases {separator : GoString} (h : logicalSeparator op = .ok separator) :
    (op = "$and" ∧ separator = " AND ") ∨ (op = "$or" ∧ separator = " OR ") := by
  unfold logicalSeparator at h
  split at h
  · cases h
    exact .inl ⟨rfl, rfl⟩
  · cases h
    exact .inr ⟨rfl, rfl⟩
  · cases h

mutual

theorem emits_buildMembers (fields : List (String × GoAny T)) (t t' : TranslatorState T)
    (clauses : List Sql.Text) (h : buildMembers P schema dialect fields t = .ok (clauses, t')) :
    Emits (memberColumns P schema fields) t clauses t' := by
  match fields with
  | [] =>
    cases h
    exact .nil _
  | (name, val) :: fields =>
    obtain ⟨⟨clause, t₁⟩, hclause, h⟩ := bind_eq_ok_iff.mp h
    obtain ⟨⟨rest, t₂⟩, hrest, h⟩ := bind_eq_ok_iff.mp h
    cases h
    rw [memberColumns]
    refine .append (show Emits _ t [clause] t₁ from ?_) (emits_buildMembers fields t₁ _ rest hrest)
    split at hclause
    case isTrue hlogical =>
      rw [if_pos hlogical]
      exact emits_buildLogical val name t t₁ clause hclause
    case isFalse hfield =>
      rw [if_neg hfield]
      exact emits_buildField hclause

theorem emits_buildLogical (value : GoAny T) (op : String) (t t' : TranslatorState T) (s : Sql.Text)
    (h : buildLogical P schema dialect op value t = .ok (s, t')) :
    Emits (logicalColumns P schema value) t [s] t' := by
  rw [buildLogical.eq_def] at h
  dsimp only at h
  split at h
  case isTrue =>
    cases value with
    | map sub =>
      obtain ⟨⟨clauses, t₁⟩, hclauses, h⟩ := bind_eq_ok_iff.mp h
      cases h
      rw [logicalColumns]
      exact emits_negateClause (emits_joinClauses (.inl rfl) (emits_buildMembers sub t t₁ clauses hclauses))
    | nilOf kind =>
      cases kind with
      | map =>
        cases h
        exact emits_negateClause (.empty (.nil t))
      | _ => cases h
    | _ => cases h
  case isFalse =>
    obtain ⟨separator, hseparator, h⟩ := bind_eq_ok_iff.mp h
    have hsep := (logicalSeparator_cases hseparator).imp And.right And.right
    cases value with
    | slice items =>
      obtain ⟨⟨parts, t₁⟩, hparts, h⟩ := bind_eq_ok_iff.mp h
      cases h
      rw [logicalColumns]
      exact emits_joinClauses hsep (emits_buildElements items op t t₁ parts hparts)
    | nilOf kind =>
      cases kind with
      | slice =>
        cases h
        exact emits_joinClauses hsep (.nil t)
      | _ => cases h
    | _ => cases h

theorem emits_buildElements (items : List (GoAny T)) (op : String) (t t' : TranslatorState T)
    (parts : List Sql.Text) (h : buildElements P schema dialect op items t = .ok (parts, t')) :
    Emits (elementColumns P schema items) t parts t' := by
  cases items with
  | nil =>
    cases h
    exact .nil _
  | cons item items =>
    cases item with
    | map sub =>
      obtain ⟨⟨clauses, t₁⟩, hclauses, h⟩ := bind_eq_ok_iff.mp h
      obtain ⟨⟨rest, t₂⟩, hrest, h⟩ := bind_eq_ok_iff.mp h
      cases h
      have hfirst := emits_joinClauses (.inl rfl) (emits_buildMembers sub t t₁ clauses hclauses)
      have hall := hfirst.append (emits_buildElements items op t₁ _ rest hrest)
      rw [elementColumns]
      split
      case isTrue hempty => exact hall.drop hempty
      case isFalse => exact hall
    | nilOf kind =>
      cases kind with
      | map => exact emits_buildElements items op t t' parts h
      | _ => cases h
    | _ => cases h

end

end

end Translator

end Nwp

end NpsSdk
