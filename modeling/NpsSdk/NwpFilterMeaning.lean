import NpsSdk.NwpRebindParams
import NpsSdk.SqlCondition
import NpsSdk.SqlLike

/-! What a filter means, and what its translation means to a database. Members of an object and operators of a field are
conjoined, and the logical operators are those of three-valued logic; a comparison is one of the database, of the column
and the operand. -/

open NpsSdk.Core

namespace NpsSdk.Nwp

open Sql (Truth Comparison)
open Sql List Truth Bool

/-! ### Values -/

/-- The value of a column; columns are never null here. -/
inductive RowValue where
  | int (n : Int)
  | text (s : GoString)
  deriving DecidableEq

def RowValue.asText : RowValue → GoString
  | .int n => GoString.ofChars (intText n)
  | .text s => s

/-- What a parameter is to the database. Numbers are compared by their value, whatever their type. -/
inductive SqlValue (T : Type) where
  | null
  | bool (b : Bool)
  | whole (n : Int)
  | fraction (x : F64)
  | text (s : GoString)
  | other (v : GoAny T)

/-- The rules of `LIKE`: PostgreSQL escapes with a backslash, SQL Server has sets in brackets. -/
def DatabaseDialect.likeRules : DatabaseDialect → Sql.LikeRules
  | .sqlServer => ⟨none, true⟩
  | .postgreSql => ⟨some '\\', false⟩

section

variable {T : Type} (P : SqlPlatform T) (schema : SqlMemoryNodeSchema) (dialect : DatabaseDialect)

def sqlNumber (x : F64) : SqlValue T := if x.isWhole then .whole x.trunc else .fraction x

def sqlValue : GoAny T → SqlValue T
  | .nil => .null
  | .bool b => .bool b
  | .string s => .text s
  | .int _ n => .whole n.1
  | .float32 x => sqlNumber (P.toFloat64 x)
  | .float64 x => sqlNumber x
  | .number text =>
    match parseInt text with
    | some n => .whole n.toInt
    | none =>
      match P.parseFloatText text with
      | some x => sqlNumber x
      | none => .text text
  | v => .other v

/-- How the database compares a column with a value is left open. -/
def database (compare : RowValue → SqlValue T → Option Ordering) : Sql.Database RowValue (GoAny T) where
  compare r v := compare r (sqlValue P v)
  like r v :=
    match v with
    | .string pattern => some (like dialect.likeRules pattern r.asText)
    | _ => none
  items := asSlice

variable (compare : RowValue → SqlValue T → Option Ordering)

/-! ### The meaning of a filter -/

def comparison (op : Comparison) (value : GoAny T) (r : RowValue) : Truth :=
  (compare r (sqlValue P value)).map op.holds

/-- An operator applied to the value of a column. The text that is looked for is the operand itself where
it is a string, and else what is printed for it. -/
def operatorTruth (op : String) (value : GoAny T) (r : RowValue) : Truth :=
  match op with
  | "$eq" => comparison P compare .eq value r
  | "$ne" => comparison P compare .ne value r
  | "$lt" => comparison P compare .lt value r
  | "$lte" => comparison P compare .le value r
  | "$gt" => comparison P compare .gt value r
  | "$gte" => comparison P compare .ge value r
  | "$contains" => some (decide (printed P (extractValue P value) <:+: r.asText))
  | "$in" => any (((asSlice value).getD []).map fun v => comparison P compare .eq v r)
  | "$nin" => neg (any (((asSlice value).getD []).map fun v => comparison P compare .eq v r))
  | "$between" =>
    match asSlice value with
    | some [low, high] => and (comparison P compare .ge low r) (comparison P compare .le high r)
    | _ => none
  | _ => none

variable (row : GoString → RowValue)

def operatorTruths (column : GoString) (ops : List (String × GoAny T)) : List Truth :=
  ops.map fun (op, value) => operatorTruth P compare op value (row column)

def fieldTruth (name : String) (val : GoAny T) : Truth :=
  match schema.getField P name, val with
  | some field, .map ops => all (operatorTruths P compare row field.resolvedColumnName ops)
  | some _, .nilOf .map => some true
  | _, _ => none

mutual

def objectTruth : List (String × GoAny T) → Truth
  | [] => some true
  | (name, val) :: fields =>
    and (if isLogical name then logicalTruth name val else fieldTruth P schema compare row name val)
      (objectTruth fields)

def logicalTruth (op : String) : GoAny T → Truth
  | .map sub => if op = "$not" then neg (objectTruth sub) else none
  | .nilOf .map => if op = "$not" then some false else none
  | .slice items =>
    if op = "$and" then all (itemTruths items)
    else if op = "$or" then any (itemTruths items)
    else none
  | .nilOf .slice => if op = "$and" then some true else if op = "$or" then some false else none
  | _ => none

def itemTruths : List (GoAny T) → List Truth
  | [] => []
  | v :: items => itemTruth v :: itemTruths items

def itemTruth : GoAny T → Truth
  | .map sub => objectTruth sub
  | .nilOf .map => some true
  | _ => none

end

/-- A filter that is no object is no filter. -/
def filterTruth (filter : GoAny T) : Truth :=
  match filter.ordered with
  | .map obj => objectTruth P schema compare row obj
  | _ => some true

end

/-! ### The shape of a filter -/

section

variable {T : Type}

mutual

/-- No clause comes out: the object is empty, or has one member out of which none comes. -/
def vacuousObject : List (String × GoAny T) → Bool
  | [] => true
  | [(name, val)] => isLogical name && vacuousValue val
  | _ => false

/-- The value of a logical operator, or an item of it. -/
def vacuousValue : GoAny T → Bool
  | .map sub => vacuousObject sub
  | .slice items => vacuousItems items
  | .nilOf _ => true
  | _ => false

def vacuousItems : List (GoAny T) → Bool
  | [] => true
  | v :: items => vacuousValue v && vacuousItems items

end

def vacuousMember (name : String) (val : GoAny T) : Bool := isLogical name && vacuousValue val

/-- A field has an operator. -/
def joinedField : GoAny T → Bool
  | .map ops => !ops.isEmpty
  | _ => false

mutual

def joinedMembers : List (String × GoAny T) → Bool
  | [] => true
  | (name, val) :: fields =>
    (if isLogical name then joinedValue val else joinedField val) && joinedMembers fields

/-- Every clause that is joined with others is there. -/
def joinedValue : GoAny T → Bool
  | .map sub => joinedMembers sub && (sub.length ≤ 1 || sub.all fun (name, val) => !vacuousMember name val)
  | .slice items => joinedItems items
  | .nilOf _ => true
  | _ => false

def joinedItems : List (GoAny T) → Bool
  | [] => true
  | v :: items => joinedValue v && joinedItems items

end

/-- All the clauses of a filter that are joined are there, so that its text can be read. -/
def joinedFilter (filter : GoAny T) : Bool :=
  match filter.ordered with
  | .map obj => joinedValue (.map obj)
  | _ => true

variable (P : SqlPlatform T) (dialect : DatabaseDialect)

/-- A number that `extractValue` takes for an integer is in the range of one. -/
def exactOperand : GoAny T → Bool
  | .float64 x =>
    (-2 ^ 63 ≤ x.trunc && x.trunc < 2 ^ 63) || !sameFloat x (F64.ofInt (P.int64OfFloat x).toInt)
  | _ => true

/-- The operand reaches the database as it is meant. -/
def faithfulOperator (op : String) (value : GoAny T) : Bool :=
  match op with
  | "$contains" => (printed P (extractValue P value)).all fun r => !isWild dialect.likeRules r
  | "$in" => ((asSlice value).getD []).all (exactOperand P)
  | "$nin" => ((asSlice value).getD []).all (exactOperand P)
  | "$between" => ((asSlice value).getD []).all (exactOperand P)
  | _ => exactOperand P value

def faithfulField : GoAny T → Bool
  | .map ops => ops.all fun (op, value) => faithfulOperator P dialect op value
  | _ => true

mutual

def faithfulMembers : List (String × GoAny T) → Bool
  | [] => true
  | (name, val) :: fields =>
    (if isLogical name then faithfulLogical name val else faithfulField P dialect val) && faithfulMembers fields

/-- What is negated is there; of the alternatives there is one, and all of them are there or none. -/
def faithfulLogical (op : String) : GoAny T → Bool
  | .map sub => !vacuousObject sub && faithfulMembers sub
  | .nilOf .map => false
  | .slice items =>
    faithfulItems items && (op ≠ "$or" ||
      (!items.isEmpty && (items.all vacuousValue || items.all fun v => !vacuousValue v)))
  | .nilOf .slice => op ≠ "$or"
  | _ => true

def faithfulItems : List (GoAny T) → Bool
  | [] => true
  | v :: items => faithfulItem v && faithfulItems items

def faithfulItem : GoAny T → Bool
  | .map sub => faithfulMembers sub
  | _ => true

end

/-- No operand of a filter and no clause of it is lost on the way to the database. -/
def faithfulFilter (filter : GoAny T) : Bool :=
  match filter.ordered with
  | .map obj => faithfulMembers P dialect obj
  | _ => true

end

/-! ### Clauses and what they stand for -/

section

/-- What a part of a filter asks of its clause. -/
@[ext]
structure ClauseSpec where
  vacuous : Bool
  joined : Bool
  faithful : Bool
  truth : Truth

variable (q : Sql.Quoting) (eval : Sql.Expr → Truth)

inductive Translates : GoString → ClauseSpec → Prop
  | nothing {s : ClauseSpec} (hvacuous : s.vacuous = true) (hjoined : s.joined = true)
      (htruth : s.faithful = true → s.truth = some true) : Translates [] s
  | clause {text : GoString} {s : ClauseSpec} {outcome : Option Sql.Expr} (hvacuous : s.vacuous = false)
      (htext : text ≠ []) (hreads : Sql.Reads q text outcome) (hjoined : outcome.isSome = s.joined)
      (htruth : s.faithful = true → ∀ e ∈ outcome, eval e = s.truth) : Translates text s

/-- What is asked of clauses in parentheses. -/
def groupSpec (fold : List Truth → Truth) (specs : List ClauseSpec) : ClauseSpec where
  vacuous := false
  joined := !specs.isEmpty && specs.all fun s => s.joined && !s.vacuous
  faithful := specs.all (·.faithful)
  truth := fold (specs.map (·.truth))

variable {q eval} {specs : List ClauseSpec} {fold : List Truth → Truth}

/-- The clauses as parts of a list in parentheses, with the expressions they are read as. -/
theorem exists_parts {texts : List GoString} (h : List.Forall₂ (Translates q eval) texts specs) :
    ∃ outcomes, List.Forall₂ (Sql.Part q) texts outcomes ∧
      (outcomes.mapM id).isSome = (specs.all fun s => s.joined && !s.vacuous) ∧
      (specs.all (·.faithful) = true → ∀ es, outcomes.mapM id = some es → es.map eval = specs.map (·.truth)) := by
  induction h with
  | nil =>
    refine ⟨[], .nil, rfl, ?_⟩
    intro _ es hes
    cases hes
    rfl
  | @cons text s texts specs hfirst _ ih =>
    obtain ⟨outcomes, hparts, hsome, htruths⟩ := ih
    cases hfirst with
    | nothing hvacuous =>
      refine ⟨none :: outcomes, .cons (.inl ⟨rfl, rfl⟩) hparts, ?_, ?_⟩
      · rw [all_cons, hvacuous, Bool.not_true, Bool.and_false]
        rfl
      · intro _ es hes
        cases hes
    | @clause _ _ outcome hvacuous htext hreads hjoined htruth =>
      refine ⟨outcome :: outcomes, .cons (.inr hreads) hparts, ?_, ?_⟩
      · rw [all_cons, hvacuous, ← hjoined, ← hsome, mapM_cons]
        cases outcome with
        | none => rfl
        | some e => cases outcomes.mapM id <;> rfl
      · intro hfaithful es hes
        rw [all_cons, and_eq_true] at hfaithful
        rw [mapM_cons] at hes
        obtain ⟨e, he, hes⟩ := Option.bind_eq_some_iff.mp hes
        obtain ⟨es', hes', hes⟩ := Option.bind_eq_some_iff.mp hes
        cases hes
        rw [map_cons, map_cons, htruth hfaithful.1 e he, htruths hfaithful.2 es' hes']

theorem translates_group (j : Sql.Joint q) (hmeans : j.Means eval fold) {clauses : List Sql.Text}
    (h : List.Forall₂ (Translates q eval) (clauses.map (spell q)) specs) :
    Translates q eval (spell q (group j.text clauses)) (groupSpec fold specs) := by
  obtain ⟨outcomes, hparts, hsome, htruths⟩ := exists_parts h
  have hspell : spell q (group j.text clauses) =
      "(" ++ (GoString.join j.text (clauses.map (spell q)) ++ ")") := by
    rw [group, spell_cons, spell_append, spell_join]
    rfl
  rw [hspell]
  refine .clause rfl (fun h => (by cases h)) (j.reads_group hparts) ?_ ?_
  · change _ = (!specs.isEmpty && specs.all fun s => s.joined && !s.vacuous)
    have hempty : outcomes.isEmpty = specs.isEmpty := by
      rw [Bool.eq_iff_iff, isEmpty_iff_length_eq_zero, isEmpty_iff_length_eq_zero, ← hparts.length_eq, h.length_eq]
    rw [j.isSome_bind_combine, hsome, hempty]
  · intro hfaithful e he
    obtain ⟨es, hes, hcombine⟩ := Option.bind_eq_some_iff.mp he
    rw [hmeans es e hcombine, htruths hfaithful es hes]
    rfl

/-- One clause stands alone, and may be none. -/
def joinVacuous : List ClauseSpec → Bool
  | [] => true
  | [s] => s.vacuous
  | _ => false

/-- What is asked of the members of an object and of the parts of a logical operator. -/
def joinSpec (fold : List Truth → Truth) (specs : List ClauseSpec) : ClauseSpec where
  vacuous := joinVacuous specs
  joined := (specs.all (·.joined)) && (specs.length ≤ 1 || specs.all fun s => !s.vacuous)
  faithful := specs.all (·.faithful)
  truth := fold (specs.map (·.truth))

theorem Translates.congr {text : GoString} {s s' : ClauseSpec} (h : Translates q eval text s)
    (hvacuous : s'.vacuous = s.vacuous) (hjoined : s'.joined = s.joined)
    (htruth : s'.faithful = true → s.faithful = true ∧ s'.truth = s.truth) : Translates q eval text s' := by
  cases h with
  | nothing hv hj ht =>
    refine .nothing (hvacuous.trans hv) (hjoined.trans hj) fun hfaithful => ?_
    obtain ⟨hfaithful, heq⟩ := htruth hfaithful
    exact heq.trans (ht hfaithful)
  | clause hv htext hreads hj ht =>
    refine .clause (hvacuous.trans hv) htext hreads (hj.trans hjoined.symm) fun hfaithful e he => ?_
    obtain ⟨hfaithful, heq⟩ := htruth hfaithful
    exact (ht hfaithful e he).trans heq.symm

theorem translates_joinClauses (j : Sql.Joint q) (hmeans : j.Means eval fold) (hone : ∀ truth, fold [truth] = truth)
    {clauses : List Sql.Text} (hnil : specs = [] → fold [] = some true)
    (h : List.Forall₂ (Translates q eval) (clauses.map (spell q)) specs) :
    Translates q eval (spell q (joinClauses j.text clauses)) (joinSpec fold specs) := by
  match clauses, specs, h with
  | [], [], _ => exact .nothing rfl rfl fun _ => hnil rfl
  | [clause], [s], .cons hclause .nil =>
    refine hclause.congr rfl ?_ fun hfaithful => ⟨?_, hone s.truth⟩
    · simp [joinSpec]
    · simpa only [joinSpec, all_cons, all_nil, Bool.and_true] using hfaithful
  | clause :: clause' :: clauses, s :: s' :: specs, h =>
    refine (translates_group j hmeans h).congr rfl ?_ fun hfaithful => ⟨hfaithful, rfl⟩
    have hmany : decide ((s :: s' :: specs).length ≤ 1) = false := by
      rw [decide_eq_false_iff_not, length_cons, length_cons]
      omega
    simp only [joinSpec, groupSpec, hmany, Bool.false_or, isEmpty_cons, Bool.not_false, Bool.true_and]
    rw [Bool.eq_iff_iff]
    simp only [all_eq_true, Bool.and_eq_true]
    exact ⟨fun h s hs => ⟨h.1 s hs, h.2 s hs⟩, fun h => ⟨fun s hs => (h s hs).1, fun s hs => (h s hs).2⟩⟩

end

/-! ### Operators -/

section Operators

variable {T : Type} {P : SqlPlatform T} {schema : SqlMemoryNodeSchema} {dialect : DatabaseDialect}

theorem sqlValue_extractValue {v : GoAny T} (h : exactOperand P v = true) :
    sqlValue P (extractValue P v) = sqlValue P v := by
  cases v with
  | float64 x =>
    rw [extractValue]
    split
    case isFalse => rfl
    case isTrue hsame =>
      rw [exactOperand, hsame, Bool.not_true, Bool.or_false, Bool.and_eq_true, decide_eq_true_iff,
        decide_eq_true_iff] at h
      have hfinite : x.isFinite = true := by
        rw [sameFloat, and_eq_true, and_eq_true] at hsame
        exact hsame.1.1
      have hint : (P.int64OfFloat x).toInt = x.trunc := by
        rw [Platform.int64OfFloat, if_pos ⟨hfinite, h⟩]
        exact Int64.toInt_ofInt_of_le h.1 h.2
      have hwhole : x.isWhole = true := by
        by_cases hlarge : 2 ^ 53 ≤ x.truncAbs
        · exact F64.isWhole_of_le_truncAbs hfinite hlarge
        rw [hint, sameFloat, and_eq_true, or_eq_true, decide_eq_true_iff] at hsame
        rcases hsame.2 with heq | hzero
        · rw [heq]
          apply F64.isWhole_ofInt
          rw [F64.natAbs_trunc]
          omega
        · exact F64.isWhole_of_isZero (and_eq_true_iff.mp hzero).1
      change SqlValue.whole _ = sqlNumber x
      rw [sqlNumber, if_pos hwhole]
      exact congrArg SqlValue.whole hint
  | number text =>
    rw [extractValue, sqlValue]
    cases hint : parseInt text with
    | some n => rfl
    | none =>
      cases hfloat : P.parseFloatText text <;> rfl
  | _ => rfl

variable (P dialect) in
def evalOn (compare : RowValue → SqlValue T → Option Ordering) (row : GoString → RowValue)
    (params : List (NwpSqlParam T)) : Sql.Expr → Truth :=
  Sql.Expr.eval (database P dialect compare) row (byName params)

variable {compare : RowValue → SqlValue T → Option Ordering} {row : GoString → RowValue}
  {params : List (NwpSqlParam T)}

variable (P dialect compare) in
def operatorSpec (op : String) (value : GoAny T) (r : RowValue) : ClauseSpec where
  vacuous := false
  joined := true
  faithful := faithfulOperator P dialect op value
  truth := operatorTruth P compare op value r

theorem beginToken_opening (dialect : DatabaseDialect) :
    beginToken dialect.quoting (.char dialect.quoting.opening) = some ([], .identifier []) := by
  cases dialect <;> rfl

/-- A column, an operator and a parameter. -/
theorem reads_infix {col operator name : GoString} {tokens : List Sql.Token} {e : Sql.Expr}
    (hcol : .char dialect.quoting.closing ∉ col) (hname : name.all isNameChar = true)
    (hsep : separates operator = true)
    (hoperator : lexRun dialect.quoting .start operator = some (tokens, .start))
    (hparse : ∀ l outer rest, parseOperand l outer (.identifier col :: (tokens ++ .parameter name :: rest)) =
      parseOperator (l.push e) outer rest) :
    Sql.Reads dialect.quoting (spell dialect.quoting [.identifier col, .fixed operator, .parameter name])
      (some e) := by
  have hlex := lexesTo_infix (quoting_reserved dialect) (beginToken_opening dialect) hcol hname hsep hoperator
  refine ⟨_, hlex, fun l outer rest => ?_⟩
  rw [cons_append, append_assoc]
  exact hparse l outer rest

/-- Parameters of the translation are found under their names. -/
def Bound (params : List (NwpSqlParam T)) (t : TranslatorState T) : Prop :=
  ∀ p ∈ t.params, byName params p.name = some p.value

variable {value : GoAny T} {t : TranslatorState T}

theorem Bound.last (h : Bound params (t.withParam value)) :
    byName params (paramName t.paramIndex) = some value :=
  h ⟨paramName t.paramIndex, value⟩ (mem_append_right _ mem_cons_self)

theorem Bound.of_withParam (h : Bound params (t.withParam value)) :
    Bound params t := fun p hp => h p (mem_append_left _ hp)

variable (P dialect compare row params) in
/-- A clause of the translation on a row, with the values of the parameters. -/
abbrev Renders (s : Sql.Text) (spec : ClauseSpec) : Prop :=
  Translates dialect.quoting (evalOn P dialect compare row params) (spell dialect.quoting s) spec

variable (P dialect compare row params) in
abbrev RendersAll (clauses : List Sql.Text) (specs : List ClauseSpec) : Prop :=
  List.Forall₂ (Translates dialect.quoting (evalOn P dialect compare row params))
    (clauses.map (spell dialect.quoting)) specs

theorem translates_compare {op : Comparison} {col operator : GoString} (hcol : .char dialect.quoting.closing ∉ col)
    (hparams : Bound params (t.withParam (extractValue P value))) (hsep : separates operator = true)
    (hoperator : lexRun dialect.quoting .start operator = some ([.comparison op], .start)) :
    Renders P dialect compare row params [.identifier col, .fixed operator, .parameter (paramName t.paramIndex)]
      ⟨false, true, exactOperand P value, comparison P compare op value (row col)⟩ := by
  have hreads := reads_infix hcol (paramName_isPlain t.paramIndex) hsep hoperator
    (e := .compare col op (paramName t.paramIndex)) fun _ _ _ => rfl
  refine .clause rfl nofun hreads rfl fun hexact e he => ?_
  cases he
  have heval : evalOn P dialect compare row params (.compare col op (paramName t.paramIndex)) =
      comparison P compare op (extractValue P value) (row col) := by
    rw [evalOn, Sql.Expr.eval, hparams.last]
    rfl
  rw [heval, comparison, comparison, sqlValue_extractValue hexact]

variable {col : GoString} {t t' : TranslatorState T} {s : Sql.Text} {clauses : List Sql.Text}
  {specs : List ClauseSpec} {eval : Sql.Expr → Truth}

theorem translates_contains (hcol : .char dialect.quoting.closing ∉ col)
    (hparams : Bound params (t.withParam (.string ("%" ++ printed P (extractValue P value) ++ "%")))) :
    Renders P dialect compare row params [.identifier col, .fixed " LIKE ", .parameter (paramName t.paramIndex)]
      (operatorSpec P dialect compare "$contains" value (row col)) := by
  have hlex : lexRun dialect.quoting .start " LIKE " = some ([.like], .start) := by cases dialect <;> rfl
  have hreads := reads_infix hcol (paramName_isPlain t.paramIndex) (by decide) hlex
    (e := .like col (paramName t.paramIndex)) fun _ _ _ => rfl
  refine .clause rfl nofun hreads rfl fun hplain e he => ?_
  cases he
  have hwild : ∀ r ∈ printed P (extractValue P value), isWild dialect.likeRules r = false := by
    change (printed P (extractValue P value)).all (fun r => !isWild dialect.likeRules r) = true at hplain
    simpa only [all_eq_true, not_eq_true'] using hplain
  rw [evalOn, Sql.Expr.eval, hparams.last]
  exact congrArg some (like_contains hwild _)

theorem translates_buildSimple {col fieldName : GoString} {op : String}
    (hcol : .char dialect.quoting.closing ∉ col) (hparams : Bound params t')
    (h : buildSimple P col op fieldName value t = .ok (s, t')) :
    Renders P dialect compare row params s (operatorSpec P dialect compare op value (row col)) := by
  unfold buildSimple at h
  split at h
  case h_7 =>
    cases h
    exact translates_contains hcol hparams
  case h_8 => cases h
  all_goals
    cases h
    exact translates_compare hcol hparams (by decide) (by cases dialect <;> rfl)

theorem any_extractValue {items : List (GoAny T)} (h : items.all (exactOperand P) = true) (r : RowValue) :
    inTruth (database P dialect compare) r (items.map (extractValue P)) =
      Truth.any (items.map fun v => comparison P compare .eq v r) := by
  rw [inTruth, map_map]
  congr 1
  refine map_congr_left fun v hv => ?_
  have hexact := all_eq_true.mp h v hv
  change comparison P compare .eq (extractValue P v) r = _
  rw [comparison, comparison, sqlValue_extractValue hexact]

/-- The clause for an empty list. -/
theorem reads_constant (negate : Bool) : Sql.Reads dialect.quoting
      (spell dialect.quoting [.fixed (if negate then ("1=1" : GoString) else "1=0")])
      (some (.constant [.char '1'] .eq [.char (if negate then '1' else '0')])) := by
  cases negate with
  | false =>
    have hlex : lexRun dialect.quoting .start [.char '1', .char '=', .char '0'] =
        some ([.number [.char '1'], .comparison .eq], .number [.char '0']) := by cases dialect <;> rfl
    exact ⟨_, lexesTo_constant hlex, fun _ _ _ => rfl⟩
  | true =>
    have hlex : lexRun dialect.quoting .start [.char '1', .char '=', .char '1'] =
        some ([.number [.char '1'], .comparison .eq], .number [.char '1']) := by cases dialect <;> rfl
    exact ⟨_, lexesTo_constant hlex, fun _ _ _ => rfl⟩

/-- A list and its complement. -/
def inList (negate : Bool) (col name : GoString) : Sql.Expr :=
  if negate then .not (.inList col name) else .inList col name

theorem reads_inList {col name : GoString} (negate : Bool) (hcol : .char dialect.quoting.closing ∉ col)
    (hname : name.all isNameChar = true) : Sql.Reads dialect.quoting (spell dialect.quoting
      [.identifier col, .fixed (if negate then (" NOT IN " : GoString) else " IN "), .parameter name])
      (some (inList negate col name)) := by
  cases negate with
  | false =>
    have hlex : lexRun dialect.quoting .start " IN " = some ([.in], .start) := by cases dialect <;> rfl
    exact reads_infix hcol hname (by decide) hlex fun _ _ _ => rfl
  | true =>
    have hlex : lexRun dialect.quoting .start " NOT IN " = some ([.not, .in], .start) := by
      cases dialect <;> rfl
    exact reads_infix hcol hname (by decide) hlex fun _ _ _ => rfl

def inSpec (P : SqlPlatform T) (compare : RowValue → SqlValue T → Option Ordering) (items : List (GoAny T))
    (negate : Bool) (r : RowValue) : ClauseSpec :=
  let truth := Truth.any (items.map fun v => comparison P compare .eq v r)
  ⟨false, true, items.all (exactOperand P), if negate then Truth.neg truth else truth⟩

theorem translates_buildIn {arr : GoAny T} {negate : Bool}
    (hcol : (asSlice arr).any (·.isEmpty) = false → .char dialect.quoting.closing ∉ col) (hparams : Bound params t')
    (h : buildIn P col arr negate t = .ok (s, t')) :
    Renders P dialect compare row params s (inSpec P compare ((asSlice arr).getD []) negate (row col)) := by
  rw [buildIn] at h
  split at h
  case h_1 => cases h
  case h_2 hitems =>
    cases h
    refine .clause rfl ?_ (reads_constant negate) rfl fun _ e he => ?_
    · cases negate <;> exact fun h => (by cases h)
    · cases he
      rw [hitems]
      cases negate <;> rfl
  case h_3 items hne hitems =>
    cases h
    have hsome : (asSlice arr).any (·.isEmpty) = false := by
      rw [hitems]
      exact List.isEmpty_eq_false_iff.mpr hne
    have hreads := reads_inList negate (hcol hsome) (paramName_isPlain t.paramIndex)
    refine .clause rfl (fun h => (by cases h)) hreads rfl fun hexact e he => ?_
    cases he
    rw [hitems] at hexact ⊢
    have hexact : items.all (exactOperand P) = true := hexact
    have heval : evalOn P dialect compare row params (.inList col (paramName t.paramIndex)) =
        Truth.any (items.map fun v => comparison P compare .eq v (row col)) := by
      rw [← any_extractValue hexact, evalOn, Sql.Expr.eval, hparams.last]
      rfl
    cases negate with
    | false => exact heval
    | true => exact congrArg neg heval

theorem translates_buildBetween {arr : GoAny T} (hcol : .char dialect.quoting.closing ∉ col)
    (hparams : Bound params t') (h : buildBetween P col arr t = .ok (s, t')) :
    Renders P dialect compare row params s (operatorSpec P dialect compare "$between" arr (row col)) := by
  rw [buildBetween] at h
  split at h
  case h_2 => cases h
  case h_1 low high hitems =>
    cases h
    have hlow := hparams.of_withParam.last
    have hhigh : byName params (paramName (t.paramIndex + 1)) = some (extractValue P high) := hparams.last
    have hand : lexRun dialect.quoting .start " AND " = some ([.and], .start) := by cases dialect <;> rfl
    have hbetween : lexRun dialect.quoting .start " BETWEEN " = some ([.between], .start) := by
      cases dialect <;> rfl
    have hfirst := lexesTo_infix (quoting_reserved dialect) (beginToken_opening dialect) hcol
      (paramName_isPlain t.paramIndex) (by decide) hbetween
    have hsecond := (lexesAlways_of_run hand).append
      (lexesTo_parameter (q := dialect.quoting) (paramName_isPlain (t.paramIndex + 1)))
    have hreads : Sql.Reads dialect.quoting (spell dialect.quoting
        ([.identifier col, .fixed " BETWEEN ", .parameter (paramName t.paramIndex)] ++
          [.fixed " AND ", .parameter (paramName (t.paramIndex + 1))]))
        (some (.between col (paramName t.paramIndex) (paramName (t.paramIndex + 1)))) := by
      have hspell : spell dialect.quoting [.fixed " AND ", .parameter (paramName (t.paramIndex + 1))] =
          " AND " ++ Sql.Piece.text dialect.quoting (.parameter (paramName (t.paramIndex + 1))) := by
        rw [spell_cons, spell_cons, spell_nil, append_nil]
        rfl
      rw [spell_append, hspell]
      exact ⟨_, hfirst.append rfl hsecond, fun _ _ _ => rfl⟩
    refine .clause rfl (fun h => (by cases h)) hreads rfl fun hexact e he => ?_
    cases he
    have hexact : ((asSlice arr).getD []).all (exactOperand P) = true := hexact
    rw [hitems, Option.getD_some, all_cons, all_cons, and_eq_true, and_eq_true] at hexact
    have heval : evalOn P dialect compare row params
        (.between col (paramName t.paramIndex) (paramName (t.paramIndex + 1))) =
          and (comparison P compare .ge (extractValue P low) (row col))
            (comparison P compare .le (extractValue P high) (row col)) := by
      rw [evalOn, Sql.Expr.eval, hlow, hhigh]
      rfl
    rw [heval]
    simp only [comparison, sqlValue_extractValue hexact.1, sqlValue_extractValue hexact.2.1]
    simp only [operatorSpec, operatorTruth, hitems, comparison]

variable {field : SqlMemoryNodeField}

theorem translates_buildOperator {op : String}
    (hcol : ∀ col ∈ operatorColumns field op value, .char dialect.quoting.closing ∉ col) (hparams : Bound params t')
    (h : buildOperator P field op value t = .ok (s, t')) :
    Renders P dialect compare row params s
      (operatorSpec P dialect compare op value (row field.resolvedColumnName)) := by
  unfold buildOperator at h
  unfold operatorColumns at hcol
  split at h
  · exact translates_buildIn (fun hsome => hcol field.resolvedColumnName (by simp [hsome])) hparams h
  · exact translates_buildIn (fun hsome => hcol field.resolvedColumnName (by simp [hsome])) hparams h
  · exact translates_buildBetween (hcol _ mem_cons_self) hparams h
  · rename_i hin hnin _
    rw [if_neg fun hlist => hlist.1.elim hin hnin] at hcol
    exact translates_buildSimple (hcol _ mem_cons_self) hparams h

theorem Emits.params_subset {columns : List GoString} (h : Emits columns t clauses t') : t.params ⊆ t'.params := by
  induction h with
  | nil t => exact List.Subset.refl _
  | empty _ ih => exact ih
  | constant negate _ ih => exact ih
  | simple col hop value _ ih => exact fun p hp => ih (mem_append_left _ hp)
  | between col low high _ ih => exact fun p hp => ih (mem_append_left _ (mem_append_left _ hp))
  | group hsep _ _ ihclauses ih => exact fun p hp => ih (ihclauses hp)
  | negation _ _ ihinner ih => exact fun p hp => ih (ihinner hp)

theorem Bound.of_emits {columns : List GoString} (h : Bound params t') (hemits : Emits columns t clauses t') :
    Bound params t :=
  fun p hp => h p (hemits.params_subset hp)

variable (compare row) in
theorem translates_buildOperators {ops : List (String × GoAny T)}
    (hcolumns : ∀ col ∈ conditionColumns field (.map ops), .char dialect.quoting.closing ∉ col)
    {clauses : List Sql.Text} {t t' : TranslatorState T} (hparams : Bound params t')
    (h : buildOperators P field ops t = .ok (clauses, t')) :
    RendersAll P dialect compare row params clauses
      (ops.map fun (op, value) => operatorSpec P dialect compare op value (row field.resolvedColumnName)) := by
  induction ops generalizing t clauses with
  | nil =>
    cases h
    exact .nil
  | cons member ops ih =>
    obtain ⟨⟨clause, t₁⟩, hclause, h⟩ := bind_eq_ok_iff.mp h
    obtain ⟨⟨rest, t₂⟩, hrest, h⟩ := bind_eq_ok_iff.mp h
    cases h
    have hparams₁ := hparams.of_emits (emits_buildOperators hrest)
    rw [conditionColumns, flatMap_cons, forall_mem_append] at hcolumns
    exact .cons (translates_buildOperator hcolumns.1 hparams₁ hclause) (ih hcolumns.2 hrest)

variable (P schema dialect compare row) in
/-- What is asked of the clause of a member. -/
def memberSpec (member : String × GoAny T) : ClauseSpec where
  vacuous := vacuousMember member.1 member.2
  joined := if isLogical member.1 then joinedValue member.2 else joinedField member.2
  faithful :=
    if isLogical member.1 then faithfulLogical P dialect member.1 member.2
    else faithfulField P dialect member.2
  truth :=
    if isLogical member.1 then logicalTruth P schema compare row member.1 member.2
    else fieldTruth P schema compare row member.1 member.2

theorem all_truth_singleton (truth : Truth) : Truth.all [truth] = truth := Truth.and_true truth

theorem any_truth_singleton (truth : Truth) : Truth.any [truth] = truth := Truth.or_false truth

theorem translates_joinOperators (hmeans : (andJoint dialect.quoting).Means eval all)
    (h : List.Forall₂ (Translates dialect.quoting eval) (clauses.map (spell dialect.quoting)) specs)
    (hspecs : ∀ s ∈ specs, s.vacuous = false) :
    Translates dialect.quoting eval (spell dialect.quoting (joinOperators clauses))
      (groupSpec all specs) := by
  match clauses, specs, h with
  | [], [], h => exact translates_group _ hmeans h
  | [clause], [s], .cons hclause .nil =>
    have hvacuous := hspecs s mem_cons_self
    refine hclause.congr hvacuous.symm ?_ fun hfaithful => ⟨?_, all_truth_singleton s.truth⟩
    · simp [groupSpec, hvacuous]
    · simpa only [groupSpec, all_cons, all_nil, Bool.and_true] using hfaithful
  | _ :: _ :: _, _ :: _ :: _, h => exact translates_group _ hmeans h

theorem memberSpec_field {name : String} (h : isLogical name = false) (val : GoAny T) :
    memberSpec P schema dialect compare row (name, val) =
      ⟨false, joinedField val, faithfulField P dialect val, fieldTruth P schema compare row name val⟩ := by
  simp [memberSpec, vacuousMember, h]

theorem translates_buildField {name : String} {val : GoAny T}
    (hcolumns : ∀ col ∈ fieldColumns P schema name val, .char dialect.quoting.closing ∉ col)
    (hlogical : isLogical name = false)
    (hparams : Bound params t') (h : buildField P schema name val t = .ok (s, t')) :
    Renders P dialect compare row params s (memberSpec P schema dialect compare row (name, val)) := by
  obtain ⟨field, hfield, h⟩ := bind_eq_ok_iff.mp h
  have hget := getField_of_validateField hfield
  rw [fieldColumns, hget, Option.elim_some] at hcolumns
  have hmeans := means_and (q := dialect.quoting) (database P dialect compare) row (byName params)
  rw [memberSpec_field hlogical]
  rw [buildFieldCondition.eq_def] at h
  split at h
  case h_1 =>
    obtain ⟨⟨clauses, t₁⟩, hclauses, h⟩ := bind_eq_ok_iff.mp h
    cases h
    have hops := translates_buildOperators compare row hcolumns hparams hclauses
    have hall := translates_joinOperators hmeans hops fun s hs => by
      obtain ⟨_, -, rfl⟩ := mem_map.mp hs
      rfl
    refine hall.congr rfl ?_ fun hfaithful => ⟨?_, ?_⟩
    · simp [joinedField, groupSpec, operatorSpec]
    · exact all_map.trans hfaithful
    · simp only [fieldTruth, hget, groupSpec, map_map]
      rfl
  case h_2 =>
    cases h
    have hnone : RendersAll P dialect compare row params [] [] := .nil
    have hall := translates_joinOperators hmeans hnone fun s hs => (by cases hs)
    refine hall.congr rfl rfl fun hfaithful => ⟨rfl, ?_⟩
    simp only [fieldTruth, hget]
    rfl
  case h_3 => cases h

/-! ### Objects -/

variable (P schema dialect compare row) (fields : List (String × GoAny T))

def objectSpec : ClauseSpec where
  vacuous := vacuousObject fields
  joined := joinedValue (.map fields)
  faithful := faithfulMembers P dialect fields
  truth := objectTruth P schema compare row fields

def itemSpec (v : GoAny T) : ClauseSpec where
  vacuous := vacuousValue v
  joined := joinedValue v
  faithful := faithfulItem P dialect v
  truth := itemTruth P schema compare row v

variable {P schema dialect compare row}

theorem joinedMembers_eq :
    joinedMembers fields = (fields.map (memberSpec P schema dialect compare row)).all (·.joined) :=
  (eq_all_of_cons rfl (fun _ _ => rfl) fields).trans all_map.symm

theorem faithfulMembers_eq : faithfulMembers P dialect fields =
      (fields.map (memberSpec P schema dialect compare row)).all (·.faithful) :=
  (eq_all_of_cons rfl (fun _ _ => rfl) fields).trans all_map.symm

theorem objectTruth_eq : objectTruth P schema compare row fields =
      Truth.all ((fields.map (memberSpec P schema dialect compare row)).map (·.truth)) := by
  induction fields with
  | nil => rw [objectTruth]; rfl
  | cons member fields ih =>
    rw [objectTruth, ih]
    rfl

theorem objectSpec_eq : objectSpec P schema dialect compare row fields =
      joinSpec all (fields.map (memberSpec P schema dialect compare row)) := by
  refine ClauseSpec.ext ?_ ?_ (faithfulMembers_eq fields) (objectTruth_eq fields)
  · match fields with
    | [] => rfl
    | [_] => rfl
    | _ :: _ :: _ => rfl
  · change joinedValue (.map fields) = _
    rw [joinedValue, joinedMembers_eq, joinSpec]
    simp only [length_map, all_map]
    rfl

theorem translates_object {fields : List (String × GoAny T)}
    (h : RendersAll P dialect compare row params clauses (fields.map (memberSpec P schema dialect compare row))) :
    Renders P dialect compare row params
      (joinClauses " AND " clauses) (objectSpec P schema dialect compare row fields) := by
  rw [objectSpec_eq]
  exact translates_joinClauses (andJoint dialect.quoting) (means_and _ _ _) all_truth_singleton (fun _ => rfl) h

theorem translates_negation {sub : List (String × GoAny T)} {inner : Sql.Text}
    (h : Renders P dialect compare row params inner
      (objectSpec P schema dialect compare row sub)) : Renders P dialect compare row params (negateClause dialect inner)
      ⟨vacuousObject sub, joinedValue (.map sub), !vacuousObject sub && faithfulMembers P dialect sub,
        neg (objectTruth P schema compare row sub)⟩ := by
  unfold Renders at h ⊢
  rw [negateClause]
  split
  case isTrue hempty =>
    rw [hempty] at h
    cases h with
    | nothing hvacuous hjoined =>
      have hvacuous : vacuousObject sub = true := hvacuous
      refine .nothing hvacuous hjoined fun hfaithful => ?_
      rw [hvacuous] at hfaithful
      cases hfaithful
    | clause hvacuous htext _ _ _ => exact absurd rfl htext
  case isFalse hne =>
    have hspell : spell dialect.quoting (.fixed "NOT (" :: (inner ++ [.fixed ")"])) =
        "NOT (" ++ (spell dialect.quoting inner ++ ")") := by
      rw [spell_cons, spell_append]
      rfl
    rw [hspell]
    generalize spell dialect.quoting inner = text at h hne ⊢
    cases h with
    | nothing _ _ _ => exact absurd rfl hne
    | clause hvacuous htext hreads hjoined htruth =>
      refine .clause hvacuous (fun h => (by cases h)) (reads_negation hreads) ?_ fun hfaithful e he => ?_
      · rw [Option.isSome_map]
        exact hjoined
      · obtain ⟨inner, hinner, rfl⟩ := Option.map_eq_some_iff.mp he
        exact congrArg neg (htruth (and_eq_true_iff.mp hfaithful).2 inner hinner)

/-- The parts that are there, and what is known of the others. -/
structure TranslatesItems (q : Sql.Quoting) (eval : Sql.Expr → Truth) (texts : List GoString)
    (specs : List ClauseSpec) : Prop where
  parts : List.Forall₂ (Translates q eval) texts (specs.filter fun s => !s.vacuous)
  others : ∀ s ∈ specs, s.vacuous = true → Translates q eval [] s

theorem joinVacuous_eq_false (h : ∀ s ∈ specs, s.vacuous = false) (hne : specs ≠ []) : joinVacuous specs = false := by
  match specs with
  | [] => exact absurd rfl hne
  | [s] => exact h s mem_cons_self
  | _ :: _ :: _ => rfl

theorem filter_present_of_all_vacuous (h : specs.all (·.vacuous) = true) : (specs.filter fun s => !s.vacuous) = [] := by
  rw [filter_eq_nil_iff]
  intro s hs
  simp [all_eq_true.mp h s hs]

section

variable {q : Sql.Quoting} {eval : Sql.Expr → Truth} {specs : List ClauseSpec} {s : ClauseSpec} {texts : List GoString}

theorem TranslatesItems.nothing (h : TranslatesItems q eval texts specs) (hs : Translates q eval [] s)
    (hvacuous : s.vacuous = true) : TranslatesItems q eval texts (s :: specs) := by
  refine ⟨?_, ?_⟩
  · rw [filter_cons_of_neg (by simp [hvacuous])]
    exact h.parts
  · exact forall_mem_cons.mpr ⟨fun _ => hs, h.others⟩

theorem TranslatesItems.clause {text : GoString} (h : TranslatesItems q eval texts specs)
    (hs : Translates q eval text s) (hvacuous : s.vacuous = false) :
    TranslatesItems q eval (text :: texts) (s :: specs) := by
  refine ⟨?_, ?_⟩
  · rw [filter_cons_of_pos (by simp [hvacuous])]
    exact .cons hs h.parts
  · refine forall_mem_cons.mpr ⟨fun htrue => ?_, h.others⟩
    rw [hvacuous] at htrue
    cases htrue

/-- A clause is a part unless it is empty. -/
theorem TranslatesItems.cons_object {clause : Sql.Text} {rest : List Sql.Text}
    (h : TranslatesItems q eval (rest.map (spell q)) specs) (hs : Translates q eval (spell q clause) s) :
    TranslatesItems q eval
      ((if spell q clause = [] then rest else clause :: rest).map (spell q)) (s :: specs) := by
  split
  case isTrue hempty =>
    rw [hempty] at hs
    cases hs with
    | nothing hvacuous hjoined htruth => exact h.nothing (.nothing hvacuous hjoined htruth) hvacuous
    | clause _ htext _ _ _ => exact absurd rfl htext
  case isFalse hne =>
    have hvacuous : s.vacuous = false := by
      generalize spell q clause = text at hs hne
      cases hs with
      | nothing _ _ _ => exact absurd rfl hne
      | clause hvacuous => exact hvacuous
    exact h.clause hs hvacuous

theorem TranslatesItems.joined_of_vacuous (h : TranslatesItems q eval texts specs) (hs : s ∈ specs)
    (hvacuous : s.vacuous = true) : s.joined = true ∧ (s.faithful = true → s.truth = some true) := by
  cases h.others s hs hvacuous with
  | nothing _ hjoined htruth => exact ⟨hjoined, htruth⟩
  | clause _ htext _ _ _ => exact absurd rfl htext

theorem TranslatesItems.join (j : Sql.Joint q) {fold : List Truth → Truth} (hmeans : j.Means eval fold)
    (hone : ∀ truth, fold [truth] = truth) {parts : List Sql.Text}
    (h : TranslatesItems q eval (parts.map (spell q)) specs) {faithful : Bool} {truth : Truth}
    (hnone : faithful = true → specs.all (·.vacuous) = true → truth = some true)
    (hsome : faithful = true → specs.all (·.vacuous) = false → specs.all (·.faithful) = true ∧
      truth = fold ((specs.filter fun s => !s.vacuous).map (·.truth))) :
    Translates q eval (spell q (joinClauses j.text parts))
      ⟨specs.all (·.vacuous), specs.all (·.joined), faithful, truth⟩ := by
  cases hall : specs.all (·.vacuous) with
  | true =>
    have hvacuous := all_eq_true.mp hall
    have hfilter := filter_present_of_all_vacuous hall
    have hparts : parts = [] := by
      have hlength := h.parts.length_eq
      rw [hfilter, length_map] at hlength
      exact length_eq_zero_iff.mp hlength
    rw [hparts]
    refine .nothing rfl ?_ fun hfaithful => hnone hfaithful hall
    exact all_eq_true.mpr fun s hs => (h.joined_of_vacuous hs (hvacuous s hs)).1
  | false =>
    have hpresent : ∀ s ∈ specs.filter fun s => !s.vacuous, s.vacuous = false := by simp
    have hne : (specs.filter fun s => !s.vacuous) ≠ [] := by
      intro hempty
      rw [filter_eq_nil_iff] at hempty
      rw [← not_eq_true, all_eq_true] at hall
      exact hall fun s hs => by simpa using hempty s hs
    have hjoin := translates_joinClauses j hmeans hone (fun hnil => absurd hnil hne) h.parts
    refine hjoin.congr (joinVacuous_eq_false hpresent hne).symm ?_ fun hfaithful => ?_
    · have hothers : (specs.filter fun s => !s.vacuous).all (fun s => !s.vacuous) = true :=
        all_eq_true.mpr fun s hs => (mem_filter.mp hs).2
      change specs.all (·.joined) = (_ && (_ || _))
      rw [hothers, Bool.or_true, Bool.and_true, Bool.eq_iff_iff, all_eq_true, all_eq_true]
      refine ⟨fun hjoined s hs => hjoined s (mem_filter.mp hs).1, fun hjoined s hs => ?_⟩
      cases hvacuous : s.vacuous with
      | true => exact (h.joined_of_vacuous hs hvacuous).1
      | false => exact hjoined s (mem_filter.mpr ⟨hs, by rw [hvacuous]; rfl⟩)
    · obtain ⟨hspecs, htruth⟩ := hsome hfaithful hall
      refine ⟨?_, htruth⟩
      exact all_eq_true.mpr fun s hs => all_eq_true.mp hspecs s (mem_filter.mp hs).1

end

variable (items : List (GoAny T))

theorem vacuousItems_eq :
    vacuousItems items = (items.map (itemSpec P schema dialect compare row)).all (·.vacuous) :=
  (eq_all_of_cons rfl (fun _ _ => rfl) items).trans all_map.symm

theorem joinedItems_eq : joinedItems items = (items.map (itemSpec P schema dialect compare row)).all (·.joined) :=
  (eq_all_of_cons rfl (fun _ _ => rfl) items).trans all_map.symm

theorem faithfulItems_eq :
    faithfulItems P dialect items = (items.map (itemSpec P schema dialect compare row)).all (·.faithful) :=
  (eq_all_of_cons rfl (fun _ _ => rfl) items).trans all_map.symm

theorem itemTruths_eq :
    itemTruths P schema compare row items = (items.map (itemSpec P schema dialect compare row)).map (·.truth) := by
  induction items with
  | nil => rw [itemTruths]; rfl
  | cons v items ih =>
    rw [itemTruths, ih]
    rfl

/-- Parts that are not there are true, and a conjunction does without them. -/
theorem TranslatesItems.all_filter {q : Sql.Quoting} {texts : List GoString}
    (h : TranslatesItems q eval texts specs) (hfaithful : specs.all (·.faithful) = true) :
    Truth.all (specs.map (·.truth)) = Truth.all ((specs.filter fun s => !s.vacuous).map (·.truth)) := by
  have hdropped : ∀ s ∈ specs, s.vacuous = true → s.truth = some true := fun s hs hvacuous =>
    (h.joined_of_vacuous hs hvacuous).2 (all_eq_true.mp hfaithful s hs)
  clear h hfaithful
  induction specs with
  | nil => rfl
  | cons s specs ih =>
    have hrest := ih fun s hs => hdropped s (mem_cons_of_mem _ hs)
    cases hvacuous : s.vacuous with
    | true =>
      rw [filter_cons_of_neg (by simp [hvacuous]), ← hrest, map_cons, hdropped s mem_cons_self hvacuous]
      exact true_and _
    | false =>
      rw [filter_cons_of_pos (by simp [hvacuous])]
      exact congrArg (and s.truth) hrest

/-- Alternatives of which all are there or none, and one is. -/
theorem TranslatesItems.any_cases {q : Sql.Quoting} {texts : List GoString} (h : TranslatesItems q eval texts specs)
    (hfaithful : specs.all (·.faithful) = true) (hne : specs ≠ []) (hall : specs.all (·.vacuous) = true) :
    Truth.any (specs.map (·.truth)) = some true := by
  cases specs with
  | nil => exact absurd rfl hne
  | cons s specs =>
    have hvacuous := all_eq_true.mp hall s mem_cons_self
    have htruth := (h.joined_of_vacuous mem_cons_self hvacuous).2 (all_eq_true.mp hfaithful s mem_cons_self)
    rw [map_cons, htruth]
    rfl

theorem translates_items {items : List (GoAny T)} {op : String} {separator : GoString} {parts : List Sql.Text}
    (hseparator : logicalSeparator op = .ok separator)
    (h : TranslatesItems dialect.quoting (evalOn P dialect compare row params)
      (parts.map (spell dialect.quoting)) (items.map (itemSpec P schema dialect compare row))) :
    Renders P dialect compare row params (joinClauses separator parts)
      ⟨vacuousItems items, joinedItems items, faithfulLogical P dialect op (.slice items),
        logicalTruth P schema compare row op (.slice items)⟩ := by
  rw [vacuousItems_eq, joinedItems_eq]
  rcases logicalSeparator_cases hseparator with ⟨rfl, rfl⟩ | ⟨rfl, rfl⟩
  · have htruth : logicalTruth P schema compare row "$and" (.slice items) =
        Truth.all ((items.map (itemSpec P schema dialect compare row)).map (·.truth)) := by
      rw [logicalTruth, if_pos rfl, itemTruths_eq]
    have hfaithful : faithfulLogical P dialect "$and" (.slice items) = true →
        (items.map (itemSpec P schema dialect compare row)).all (·.faithful) = true := by
      intro hfaithful
      rw [faithfulLogical, and_eq_true] at hfaithful
      rw [← faithfulItems_eq]
      exact hfaithful.1
    rw [htruth]
    refine h.join (andJoint dialect.quoting) (means_and _ _ _) all_truth_singleton ?_ ?_
    · intro hlogical hall
      rw [h.all_filter (hfaithful hlogical), filter_present_of_all_vacuous hall]
      rfl
    · exact fun hlogical _ => ⟨hfaithful hlogical, h.all_filter (hfaithful hlogical)⟩
  · have htruth : logicalTruth P schema compare row "$or" (.slice items) =
        Truth.any ((items.map (itemSpec P schema dialect compare row)).map (·.truth)) := by
      rw [logicalTruth, if_neg (by decide), if_pos rfl, itemTruths_eq]
    have hfaithful : faithfulLogical P dialect "$or" (.slice items) = true →
        (items.map (itemSpec P schema dialect compare row)).all (·.faithful) = true ∧ items ≠ [] ∧
          (items.all vacuousValue = true ∨ (items.all fun v => !vacuousValue v) = true) := by
      intro hfaithful
      rw [faithfulLogical, and_eq_true, or_eq_true, and_eq_true, or_eq_true] at hfaithful
      obtain ⟨hitems, hor | ⟨hne, hcases⟩⟩ := hfaithful
      · cases hor
      · rw [← faithfulItems_eq]
        exact ⟨hitems, by simpa using hne, hcases⟩
    rw [htruth]
    refine h.join (orJoint dialect.quoting) (means_or _ _ _) any_truth_singleton ?_ ?_
    · intro hlogical hall
      obtain ⟨hitems, hne, -⟩ := hfaithful hlogical
      exact h.any_cases hitems (fun hnil => hne (map_eq_nil_iff.mp hnil)) hall
    · intro hlogical hall
      obtain ⟨hitems, hne, hcases⟩ := hfaithful hlogical
      refine ⟨hitems, ?_⟩
      rcases hcases with hvacuous | hpresent
      · rw [all_map] at hall
        exact absurd hvacuous (eq_false_iff.mp hall)
      rw [filter_eq_self.mpr fun s hs => ?_]
      obtain ⟨v, hv, rfl⟩ := mem_map.mp hs
      exact all_eq_true.mp hpresent v hv

mutual

theorem translates_buildMembers (fields : List (String × GoAny T))
    (hcolumns : ∀ col ∈ memberColumns P schema fields, .char dialect.quoting.closing ∉ col)
    (t t' : TranslatorState T) (clauses : List Sql.Text) (hparams : Bound params t')
    (h : buildMembers P schema dialect fields t = .ok (clauses, t')) :
    RendersAll P dialect compare row params clauses (fields.map (memberSpec P schema dialect compare row)) := by
  match fields with
  | [] =>
    cases h
    exact .nil
  | (name, val) :: fields =>
    obtain ⟨⟨clause, t₁⟩, hclause, h⟩ := bind_eq_ok_iff.mp h
    obtain ⟨⟨rest, t₂⟩, hrest, h⟩ := bind_eq_ok_iff.mp h
    cases h
    have hparams₁ := hparams.of_emits (emits_buildMembers _ _ _ _ hrest)
    rw [memberColumns, forall_mem_append] at hcolumns
    obtain ⟨hfirst, hcolumns⟩ := hcolumns
    refine .cons ?_ (translates_buildMembers fields hcolumns t₁ _ rest hparams hrest)
    split at hclause
    case isTrue hlogical =>
      rw [if_pos hlogical] at hfirst
      have hspec : memberSpec P schema dialect compare row (name, val) = ⟨vacuousValue val, joinedValue val,
          faithfulLogical P dialect name val, logicalTruth P schema compare row name val⟩ := by
        simp [memberSpec, vacuousMember, hlogical]
      rw [hspec]
      exact translates_buildLogical val hfirst name t t₁ clause hparams₁ hclause
    case isFalse hfield =>
      rw [if_neg hfield] at hfirst
      exact translates_buildField hfirst (eq_false_iff.mpr hfield) hparams₁ hclause

theorem translates_buildLogical (value : GoAny T)
    (hcolumns : ∀ col ∈ logicalColumns P schema value, .char dialect.quoting.closing ∉ col) (op : String)
    (t t' : TranslatorState T) (s : Sql.Text) (hparams : Bound params t')
    (h : buildLogical P schema dialect op value t = .ok (s, t')) :
    Renders P dialect compare row params s ⟨vacuousValue value, joinedValue value, faithfulLogical P dialect op value,
        logicalTruth P schema compare row op value⟩ := by
  rw [buildLogical.eq_def] at h
  dsimp only at h
  split at h
  case isTrue hnot =>
    cases value with
    | map sub =>
      obtain ⟨⟨clauses, t₁⟩, hclauses, h⟩ := bind_eq_ok_iff.mp h
      cases h
      rw [logicalColumns] at hcolumns
      have hsub := translates_object (translates_buildMembers sub hcolumns t _ clauses hparams hclauses)
      rw [logicalTruth, if_pos hnot]
      exact translates_negation hsub
    | nilOf kind =>
      cases kind with
      | map =>
        cases h
        exact .nothing rfl rfl nofun
      | _ => cases h
    | _ => cases h
  case isFalse hnot =>
    obtain ⟨separator, hseparator, h⟩ := bind_eq_ok_iff.mp h
    cases value with
    | slice items =>
      obtain ⟨⟨parts, t₁⟩, hparts, h⟩ := bind_eq_ok_iff.mp h
      cases h
      rw [logicalColumns] at hcolumns
      have hitems := translates_buildElements items hcolumns op t _ parts hparams hparts
      exact translates_items hseparator hitems
    | nilOf kind =>
      cases kind with
      | slice =>
        cases h
        rcases logicalSeparator_cases hseparator with ⟨rfl, rfl⟩ | ⟨rfl, rfl⟩
        · exact .nothing rfl rfl fun _ => rfl
        · exact .nothing rfl rfl fun hfaithful => (by cases hfaithful)
      | _ => cases h
    | _ => cases h

theorem translates_buildElements (items : List (GoAny T))
    (hcolumns : ∀ col ∈ elementColumns P schema items, .char dialect.quoting.closing ∉ col) (op : String)
    (t t' : TranslatorState T) (parts : List Sql.Text) (hparams : Bound params t')
    (h : buildElements P schema dialect op items t = .ok (parts, t')) :
    TranslatesItems dialect.quoting (evalOn P dialect compare row params) (parts.map (spell dialect.quoting))
      (items.map (itemSpec P schema dialect compare row)) := by
  cases items with
  | nil =>
    cases h
    exact ⟨.nil, nofun⟩
  | cons item items =>
    cases item with
    | map sub =>
      obtain ⟨⟨clauses, t₁⟩, hclauses, h⟩ := bind_eq_ok_iff.mp h
      obtain ⟨⟨rest, t₂⟩, hrest, h⟩ := bind_eq_ok_iff.mp h
      cases h
      have hparams₁ := hparams.of_emits (emits_buildElements _ _ _ _ _ hrest)
      rw [elementColumns, forall_mem_append] at hcolumns
      have hfirst := translates_object (translates_buildMembers sub hcolumns.1 t t₁ clauses hparams₁ hclauses)
      have hothers := translates_buildElements items hcolumns.2 op t₁ _ rest hparams hrest
      exact hothers.cons_object hfirst
    | nilOf kind =>
      cases kind with
      | map =>
        have hothers := translates_buildElements items hcolumns op t t' parts hparams h
        exact hothers.nothing (.nothing rfl rfl fun _ => rfl) rfl
      | _ => cases h
    | _ => cases h

end

/-! ### The translation of a filter -/

variable (P schema dialect) in
/-- The text is empty or spells a condition, and the truth of the filter on every row is that of the condition
with the values of the parameters. -/
structure TranslatesFilter (filter : GoAny T) (text : GoString) (params : List (NwpSqlParam T)) : Prop where
  wellFormed : text = [] ∨ (parse dialect.quoting text).isSome = true
  truth : ∀ compare row, filterTruth P schema compare row filter =
    if text = [] then some true
    else (parse dialect.quoting text).bind (evalOn P dialect compare row params)

variable {filter : GoAny T}

theorem translate_eq_ok_iff {text : GoString} {params : List (NwpSqlParam T)} :
    translate P schema dialect filter = .ok (text, params) ↔ ∃ s t,
      translateText P schema dialect filter = .ok (s, t) ∧ text = spell dialect.quoting s ∧ params = t.params := by
  rw [translate, bind_eq_ok_iff]
  constructor
  · rintro ⟨⟨s, t⟩, hs, h⟩
    cases h
    exact ⟨s, t, hs, rfl, rfl⟩
  · rintro ⟨s, t, hs, rfl, rfl⟩
    exact ⟨(s, t), hs, rfl⟩

/-- The parameters of a translation are found under their names. -/
theorem bound_translateText {t : TranslatorState T}
    (h : translateText P schema dialect filter = .ok (s, t)) : Bound t.params t := by
  obtain ⟨count, -, -, hnames⟩ := (emits_translateText h).parameters_eq
  have hnodup : (t.params.map (·.name)).Nodup := by
    rw [hnames]
    exact List.Nodup.map paramName_injective nodup_range'
  exact fun p hp => byName_of_mem hnodup hp

variable (compare row) in
theorem translates_translateText {s : Sql.Text} {t : TranslatorState T}
    (hcolumns : ∀ col ∈ filterColumns P schema filter, .char dialect.quoting.closing ∉ col)
    (h : translateText P schema dialect filter = .ok (s, t)) :
    ∃ vacuous, Translates dialect.quoting (evalOn P dialect compare row t.params) (spell dialect.quoting s)
      ⟨vacuous, joinedFilter filter, faithfulFilter P dialect filter, filterTruth P schema compare row filter⟩ := by
  have hbound := bound_translateText h
  rw [translateText] at h
  rw [joinedFilter, faithfulFilter, filterTruth]
  rw [filterColumns] at hcolumns
  cases hordered : filter.ordered with
  | map obj =>
    rw [hordered] at h hcolumns
    obtain ⟨⟨clauses, t₁⟩, hclauses, h⟩ := bind_eq_ok_iff.mp h
    cases h
    exact ⟨vacuousObject obj, translates_object (translates_buildMembers obj hcolumns _ _ clauses hbound hclauses)⟩
  | _ =>
    rw [hordered] at h
    cases h
    exact ⟨true, .nothing rfl rfl fun _ => rfl⟩

/-- The text of a filter can be read if and only if every clause it joins is there; if moreover nothing is
lost on the way, it has the meaning of the filter. -/
theorem translatesFilter_of_faithful {filter : GoAny T} {text : GoString} {params : List (NwpSqlParam T)}
    (hcolumns : ∀ col ∈ filterColumns P schema filter, .char dialect.quoting.closing ∉ col)
    (h : translate P schema dialect filter = .ok (text, params)) :
    ((text = [] ∨ (parse dialect.quoting text).isSome = true) ↔ joinedFilter filter = true) ∧
      (joinedFilter filter = true → faithfulFilter P dialect filter = true →
        TranslatesFilter P schema dialect filter text params) := by
  obtain ⟨s, t, hs, rfl, rfl⟩ := translate_eq_ok_iff.mp h
  have hreadable : (spell dialect.quoting s = [] ∨
      (parse dialect.quoting (spell dialect.quoting s)).isSome = true) ↔ joinedFilter filter = true := by
    obtain ⟨vacuous, htranslates⟩ := translates_translateText (fun _ _ => none) (fun _ => .int 0) hcolumns hs
    generalize spell dialect.quoting s = text at htranslates ⊢
    cases htranslates with
    | nothing _ hjoined _ => exact ⟨fun _ => hjoined, fun _ => .inl rfl⟩
    | clause _ htext hreads hjoined _ =>
      rw [parse_of_reads hreads, hjoined]
      exact ⟨fun hor => hor.resolve_left htext, .inr⟩
  refine ⟨hreadable, fun hjoined hfaithful => ⟨hreadable.mpr hjoined, fun compare row => ?_⟩⟩
  obtain ⟨vacuous, htranslates⟩ := translates_translateText compare row hcolumns hs
  generalize spell dialect.quoting s = text at htranslates ⊢
  cases htranslates with
  | nothing _ _ htruth => exact htruth hfaithful
  | clause _ htext hreads hsome htruth =>
    obtain ⟨e, he⟩ := Option.isSome_iff_exists.mp (hsome.trans hjoined)
    rw [if_neg htext, parse_of_reads hreads, he]
    exact (htruth hfaithful e he).symm

def cheapOrOther : GoAny Empty :=
  .map [("$or", .slice [.map [("price", .map [("$lt", .int .int64 ⟨10, by decide⟩)])],
    .map [("$not", .map [("price", .map [("$in", .slice [.int .int64 ⟨30, by decide⟩,
      .int .int64 ⟨50, by decide⟩])])])]])]

theorem cheapOrOther_translated : ∃ params, translate plainSqlPlatform itemsSchema .postgreSql cheapOrOther =
        .ok ("(\"unit_price\" < @p0 OR NOT (\"unit_price\" IN @p1))", params) ∧
      TranslatesFilter plainSqlPlatform itemsSchema .postgreSql cheapOrOther
        "(\"unit_price\" < @p0 OR NOT (\"unit_price\" IN @p1))" params := by
  have hcolumns : ∀ col ∈ filterColumns plainSqlPlatform itemsSchema cheapOrOther,
      .char DatabaseDialect.postgreSql.quoting.closing ∉ col := by
    decide +kernel
  have htranslate : ∃ params, translate plainSqlPlatform itemsSchema .postgreSql cheapOrOther =
      .ok ("(\"unit_price\" < @p0 OR NOT (\"unit_price\" IN @p1))", params) := ⟨_, rfl⟩
  obtain ⟨params, htranslate⟩ := htranslate
  exact ⟨params, htranslate, (translatesFilter_of_faithful hcolumns htranslate).2 rfl rfl⟩

/-- No alternative holds on no row, but its clause is left out and selects every row; a field without
operators leaves empty parentheses, which are no condition. -/
theorem empty_or_selects_all :
    translate plainSqlPlatform itemsSchema .postgreSql (.map [("$or", .slice [])]) = .ok ([], []) ∧
      ¬ TranslatesFilter plainSqlPlatform itemsSchema .postgreSql (.map [("$or", .slice [])]) [] [] ∧
      translate plainSqlPlatform itemsSchema .postgreSql (.map [("id", .map [])]) = .ok ("()", []) ∧
      ¬ TranslatesFilter plainSqlPlatform itemsSchema .postgreSql (.map [("id", .map [])]) "()" [] := by
  refine ⟨rfl, fun h => ?_, rfl, fun h => ?_⟩
  · have htruth := h.truth (fun _ _ => none) (fun _ => .int 0)
    cases htruth
  · rcases h.wellFormed with hempty | hparse
    · cases hempty
    · cases hparse

end Operators

end NpsSdk.Nwp
