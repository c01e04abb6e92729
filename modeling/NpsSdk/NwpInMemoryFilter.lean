import NpsSdk.NwpFilterMeaning

/-! The filters of the in-memory provider. Its operators and connectives are spelt without a dollar sign,
so what it makes of a filter for the SQL translator depends on the names of its members only: it keeps all
rows or none. -/

open NpsSdk.Core

namespace NpsSdk

open List GoMap

namespace GoAny

variable {T : Type}

mutual

def DistinctKeys : GoAny T → Prop
  | .map fields => (fields.map Prod.fst).Nodup ∧ DistinctFields fields
  | .slice items => DistinctItems items
  | .maps items => DistinctItems items
  | _ => True

def DistinctItems : List (GoAny T) → Prop
  | [] => True
  | v :: items => DistinctKeys v ∧ DistinctItems items

def DistinctFields : List (String × GoAny T) → Prop
  | [] => True
  | (_, v) :: fields => DistinctKeys v ∧ DistinctFields fields

end

/-- The same value with the members of its maps in some order. -/
structure Walks (v walked : GoAny T) : Prop where
  ordered : walked.ordered = v.ordered
  distinct : walked.DistinctKeys

end GoAny

namespace Nwp

section

variable {T : Type} (P : SqlPlatform T) (sameOther : T → T → Bool)

def toFloat : GoAny T → Option F64
  | .float64 x => some x
  | .float32 x => some (P.toFloat64 x)
  | .int .int n => some (F64.ofInt n.1)
  | .int .int64 n => some (F64.ofInt n.1)
  | .int .uint64 n => some (F64.ofInt n.1)
  | _ => none

def toSlice : GoAny T → List (GoAny T)
  | .slice items => items
  | _ => []

def equalFloats32 : List F32 → List F32 → Bool
  | [], [] => true
  | x :: xs, y :: ys => (P.toFloat64 x).equals (P.toFloat64 y) && equalFloats32 xs ys
  | _, _ => false

def equalFloats64 : List F64 → List F64 → Bool
  | [], [] => true
  | x :: xs, y :: ys => x.equals y && equalFloats64 xs ys
  | _, _ => false

mutual

def deepEqual : GoAny T → GoAny T → Bool
  | .nil, .nil => true
  | .nilOf kind, .nilOf kind' => kind = kind'
  | .bool b, .bool b' => b = b'
  | .string s, .string s' => s = s'
  | .int kind n, .int kind' n' => kind = kind' && n.1 = n'.1
  | .float32 x, .float32 y => (P.toFloat64 x).equals (P.toFloat64 y)
  | .float64 x, .float64 y => x.equals y
  | .number text, .number text' => text = text'
  | .strings items, .strings items' => items = items'
  | .floats32 items, .floats32 items' => equalFloats32 P items items'
  | .floats64 items, .floats64 items' => equalFloats64 items items'
  | .slice items, .slice items' => deepEqualItems items items'
  | .maps items, .maps items' => deepEqualItems items items'
  | .map fields, .map fields' => fields.length = fields'.length && deepEqualFields fields fields'
  | .other t, .other t' => sameOther t t'
  | _, _ => false

def deepEqualItems : List (GoAny T) → List (GoAny T) → Bool
  | [], [] => true
  | v :: items, v' :: items' => deepEqual v v' && deepEqualItems items items'
  | _, _ => false

def deepEqualFields : List (String × GoAny T) → List (String × GoAny T) → Bool
  | [], _ => true
  | (key, v) :: fields, fields' =>
    (match fields'.lookup key with
      | some v' => deepEqual v v'
      | none => false) && deepEqualFields fields fields'

end

def valuesEqual (a b : GoAny T) : Bool :=
  match toFloat P a, toFloat P b with
  | some x, some y => x.equals y
  | _, _ => deepEqual P sameOther a b

/-- Values that are neither two numbers nor two strings count as equal. -/
def compareValues (a b : GoAny T) : Ordering :=
  match toFloat P a, toFloat P b with
  | some x, some y => if x.less y then .lt else if y.less x then .gt else .eq
  | _, _ =>
    match a, b with
    | .string s, .string s' => if s = s' then .eq else if GoString.LexLe s s' then .lt else .gt
    | _, _ => .eq

/-- What an operator says; none where it is not known. -/
def matchOp (actual want : GoAny T) (op : String) : Option Bool :=
  match op with
  | "eq" => some (valuesEqual P sameOther actual want)
  | "ne" => some (!valuesEqual P sameOther actual want)
  | "gt" => some (compareValues P actual want = .gt)
  | "gte" => some (compareValues P actual want ≠ .lt)
  | "lt" => some (compareValues P actual want = .lt)
  | "lte" => some (compareValues P actual want ≠ .gt)
  | "in" => some ((toSlice want).any (valuesEqual P sameOther actual))
  | _ => none

/-- The operators of a condition; at one that is not known the whole condition is compared as a value. -/
def matchOps (actual cond : GoAny T) : List (String × GoAny T) → Bool
  | [] => true
  | (op, want) :: ops =>
    match matchOp P sameOther actual want op with
    | some holds => holds && matchOps actual cond ops
    | none => valuesEqual P sameOther actual cond

def matchField (actual cond : GoAny T) : Bool :=
  match cond with
  | .map ops => matchOps P sameOther actual cond ops
  | .nilOf .map => true
  | _ => valuesEqual P sameOther actual cond

variable (row : GoDict T)

mutual

/-- The members of a map are walked in the order in which they are written down. -/
def matchFilter : GoAny T → Bool
  | .map fields => matchMembers fields
  | _ => true

def matchMembers : List (String × GoAny T) → Bool
  | [] => true
  | (key, cond) :: fields =>
    (if key = "and" then matchAnd cond
      else if key = "or" then matchOr cond
      else matchField P sameOther (row[key]?.getD .nil) cond) && matchMembers fields

def matchAnd : GoAny T → Bool
  | .slice subs => matchAll subs
  | _ => true

/-- No alternative at all is no condition. -/
def matchOr : GoAny T → Bool
  | .slice subs => subs.isEmpty || matchAny subs
  | _ => true

def matchAll : List (GoAny T) → Bool
  | [] => true
  | sub :: subs => matchFilter sub && matchAll subs

def matchAny : List (GoAny T) → Bool
  | [] => false
  | sub :: subs => matchFilter sub || matchAny subs

end

end

/-! ### Filters of the translator -/

section Ignored

variable {T : Type} {P : SqlPlatform T} {sameOther : T → T → Bool}

/-- Operators that hold between a scalar and an object. -/
def isIdleOperator (op : String) : Bool := op = "ne" || op = "gte" || op = "lte"

/-- Conditions that hold of every scalar, whatever is asked of it: objects whose members are all idle. -/
def ignoredValue : GoAny T → Bool
  | .map sub => sub.all fun (op, _) => isIdleOperator op
  | .nilOf .map => true
  | _ => false

def ignoredMember (name : String) (val : GoAny T) : Bool := name = "and" || name = "or" || ignoredValue val

def ignoredFilter (filter : GoAny T) : Bool :=
  match filter.ordered with
  | .map obj => obj.all fun (name, val) => ignoredMember name val
  | _ => true

def isObject : GoAny T → Bool
  | .map _ => true
  | .nilOf .map => true
  | _ => false

def isContainer : GoAny T → Bool
  | .map _ => true
  | .slice _ => true
  | .nilOf _ => true
  | _ => false

/-- No value at all, or one that is no container. -/
def isScalar : GoAny T → Bool
  | .nil => true
  | .string _ => true
  | .int _ _ => true
  | .float64 _ => true
  | _ => false

variable {v : GoAny T} {ops : List (String × GoAny T)} {fields : List (String × GoAny T)} {t t' : TranslatorState T}
  {clauses : List Sql.Text} {s : Sql.Text} {field : SqlMemoryNodeField} {name : String} {row : GoDict T}

theorem toFloat_container (h : isContainer v = true) : toFloat P v = none := by
  cases v <;> first | rfl | cases h

theorem valuesEqual_container {a b : GoAny T} (ha : isScalar a = true) (hb : isContainer b = true) :
    valuesEqual P sameOther a b = false := by
  have hdeep : deepEqual P sameOther a b = false := by
    cases a <;> first | (cases ha; done) | (cases b <;> first | rfl | cases hb)
  rw [valuesEqual, toFloat_container hb, hdeep]
  cases toFloat P a <;> rfl

theorem compareValues_container {a b : GoAny T} (hb : isContainer b = true) : compareValues P a b = .eq := by
  unfold compareValues
  rw [toFloat_container hb]
  split
  case h_1 hnone => cases hnone
  case h_2 =>
    split
    · cases hb
    · rfl

theorem isContainer_of_isObject (h : isObject v = true) : isContainer v = true := by
  cases v with
  | map | nilOf => rfl
  | _ => cases h

theorem toSlice_of_isObject (h : isObject v = true) : toSlice v = [] := by
  cases v with
  | map | nilOf => rfl
  | _ => cases h

variable (P sameOther) in
theorem matchOp_cases {actual want : GoAny T} (hactual : isScalar actual = true) (op : String)
    (hwant : isLogical op = false → isObject want = true) :
    matchOp P sameOther actual want op = some (isIdleOperator op) ∨
      (matchOp P sameOther actual want op = none ∧ isIdleOperator op = false) := by
  have hknown : isLogical op = false → valuesEqual P sameOther actual want = false ∧
      compareValues P actual want = .eq ∧ toSlice want = [] := by
    intro hlogical
    have hobject := hwant hlogical
    have hcontainer := isContainer_of_isObject hobject
    exact ⟨valuesEqual_container hactual hcontainer, compareValues_container hcontainer,
      toSlice_of_isObject hobject⟩
  unfold matchOp
  split
  case h_8 heq hne hgt hgte hlt hlte hin =>
    refine .inr ⟨rfl, ?_⟩
    rw [isIdleOperator, decide_eq_false hne, decide_eq_false hgte, decide_eq_false hlte]
    rfl
  all_goals
    obtain ⟨hvalues, hcompare, hslice⟩ := hknown (by decide)
    left
    simp only [hvalues, hcompare, hslice]
    rfl

/-- An object that is compared with a scalar holds if its members are all idle. -/
theorem matchOps_eq {actual cond : GoAny T} (hactual : isScalar actual = true) (hcond : isContainer cond = true)
    (hops : ∀ m ∈ ops, isLogical m.1 = false → isObject m.2 = true) :
    matchOps P sameOther actual cond ops = ops.all fun (op, _) => isIdleOperator op := by
  induction ops with
  | nil => rfl
  | cons m ops ih =>
    obtain ⟨op, want⟩ := m
    have hrest := ih fun m hm => hops m (mem_cons_of_mem _ hm)
    have hop := matchOp_cases P sameOther hactual op (hops (op, want) mem_cons_self)
    rw [all_cons, ← hrest, matchOps]
    rcases hop with hknown | ⟨hunknown, hbusy⟩
    · rw [hknown]
    rw [hunknown]
    simp only [hbusy]
    exact valuesEqual_container hactual hcond

theorem matchField_eq {actual val : GoAny T} (hactual : isScalar actual = true) (hval : isContainer val = true)
    (hmembers : ∀ sub, val = .map sub → ∀ m ∈ sub, isLogical m.1 = false → isObject m.2 = true) :
    matchField P sameOther actual val = ignoredValue val := by
  cases val with
  | map sub => exact matchOps_eq hactual rfl (hmembers sub rfl)
  | nilOf kind =>
    cases kind with
    | map => rfl
    | _ => exact valuesEqual_container hactual rfl
  | slice items => exact valuesEqual_container hactual rfl
  | _ => cases hval

/-! ### Members that the translator accepts -/

/-- What is known of a member of an accepted object. -/
structure Shaped (name : String) (val : GoAny T) : Prop where
  container : isContainer val = true
  field : isLogical name = false → isObject val = true
  members : ∀ sub, val = .map sub → ∀ m ∈ sub, isLogical m.1 = false → isObject m.2 = true

variable {schema : SqlMemoryNodeSchema} {dialect : DatabaseDialect}

theorem exists_member_accepted (h : buildMembers P schema dialect fields t = .ok (clauses, t')) :
    ∀ m ∈ fields, ∃ t₁ s t₂, (if isLogical m.1 then buildLogical P schema dialect m.1 m.2 t₁
      else buildField P schema m.1 m.2 t₁) = .ok (s, t₂) := by
  induction fields generalizing t t' clauses with
  | nil => exact nofun
  | cons member fields ih =>
    obtain ⟨⟨clause, t₁⟩, hclause, h⟩ := bind_eq_ok_iff.mp h
    obtain ⟨⟨rest, t₂⟩, hrest, h⟩ := bind_eq_ok_iff.mp h
    exact forall_mem_cons.mpr ⟨⟨t, clause, t₁, hclause⟩, ih hrest⟩

theorem isLogical_of_buildOperator {op : String} {value : GoAny T}
    (h : buildOperator P field op value t = .ok (s, t')) : isLogical op = true := by
  unfold buildOperator at h
  split at h
  case h_4 =>
    unfold buildSimple at h
    split at h
    case h_8 => cases h
    all_goals decide
  all_goals decide

theorem isLogical_of_buildOperators (h : buildOperators P field ops t = .ok (clauses, t')) :
    ∀ m ∈ ops, isLogical m.1 = true := by
  induction ops generalizing t t' clauses with
  | nil => exact nofun
  | cons member ops ih =>
    obtain ⟨⟨clause, t₁⟩, hclause, h⟩ := bind_eq_ok_iff.mp h
    obtain ⟨⟨rest, t₂⟩, hrest, h⟩ := bind_eq_ok_iff.mp h
    exact forall_mem_cons.mpr ⟨isLogical_of_buildOperator hclause, ih hrest⟩

theorem shaped_of_buildField {val : GoAny T} (h : buildField P schema name val t = .ok (s, t')) :
    isObject val = true ∧ Shaped name val := by
  obtain ⟨field, -, h⟩ := bind_eq_ok_iff.mp h
  cases val with
  | map ops =>
    obtain ⟨⟨clauses, t₁⟩, hclauses, h⟩ := bind_eq_ok_iff.mp h
    refine ⟨rfl, rfl, fun _ => rfl, ?_⟩
    rintro sub ⟨⟩ m hm hfalse
    rw [isLogical_of_buildOperators hclauses m hm] at hfalse
    cases hfalse
  | nilOf kind =>
    cases kind with
    | map => exact ⟨rfl, rfl, fun _ => rfl, nofun⟩
    | _ => cases h
  | _ => cases h

theorem shaped_of_buildLogical {val : GoAny T} (hlogical : isLogical name = true)
    (h : buildLogical P schema dialect name val t = .ok (s, t')) : Shaped name val := by
  have hname : isLogical name = false → isObject val = true := by
    intro hfalse
    rw [hlogical] at hfalse
    cases hfalse
  rw [buildLogical.eq_def] at h
  dsimp only at h
  split at h
  case isTrue =>
    cases val with
    | map sub =>
      obtain ⟨⟨clauses, t₁⟩, hclauses, h⟩ := bind_eq_ok_iff.mp h
      refine ⟨rfl, hname, ?_⟩
      rintro sub ⟨⟩ m hm hfalse
      obtain ⟨t₁, s, t₂, hm⟩ := exists_member_accepted hclauses m hm
      rw [hfalse] at hm
      exact (shaped_of_buildField hm).1
    | nilOf kind => exact ⟨rfl, hname, nofun⟩
    | _ => cases h
  case isFalse =>
    obtain ⟨separator, -, h⟩ := bind_eq_ok_iff.mp h
    cases val with
    | slice | nilOf => exact ⟨rfl, hname, fun sub hsub => (by cases hsub)⟩
    | _ => cases h

theorem shaped_of_buildMembers (h : buildMembers P schema dialect fields t = .ok (clauses, t')) :
    ∀ m ∈ fields, Shaped m.1 m.2 := by
  intro m hm
  obtain ⟨t₁, s, t₂, haccepted⟩ := exists_member_accepted h m hm
  split at haccepted
  case isTrue hlogical => exact shaped_of_buildLogical hlogical haccepted
  case isFalse => exact (shaped_of_buildField haccepted).2

/-! ### Members in some order -/

theorem orderedFields_eq_map (fields : List (String × GoAny T)) :
    GoAny.orderedFields fields = fields.map fun m => (m.1, m.2.ordered) := eq_map_of_cons rfl (fun _ _ => rfl) fields

theorem mem_toList_ofList {V : Type} {fields : List (String × V)} (h : (fields.map Prod.fst).Nodup)
    (m : String × V) : m ∈ (ofList fields).toList ↔ m ∈ fields := by
  rw [Std.ExtTreeMap.mem_toList_iff_getElem?_eq_some]
  refine ⟨mem_of_getElem?_ofList, fun hm => ?_⟩
  rw [ofList, foldl_insert_eq_insertMany]
  refine Std.ExtTreeMap.getElem?_insertMany_list_of_mem Std.ReflCmp.compare_self ?_ hm
  refine (pairwise_map.mp h).imp fun hne => ?_
  simpa using hne

theorem mem_ordered (h : (fields.map Prod.fst).Nodup) (m : String × GoAny T) :
    m ∈ (ofList (GoAny.orderedFields fields)).toList ↔ ∃ m' ∈ fields, (m'.1, m'.2.ordered) = m := by
  rw [orderedFields_eq_map, mem_toList_ofList, mem_map]
  rw [map_map]
  exact h

theorem isObject_ordered (v : GoAny T) : isObject v.ordered = isObject v := by
  cases v <;> rfl

theorem isContainer_ordered (v : GoAny T) : isContainer v.ordered = isContainer v := by
  cases v <;> rfl

theorem distinctKeys_of_mem (h : GoAny.DistinctFields fields) : ∀ m ∈ fields, m.2.DistinctKeys := by
  induction fields with
  | nil => exact nofun
  | cons m fields ih =>
    exact forall_mem_cons.mpr ⟨h.1, ih h.2⟩

/-- An object keeps its shape whatever the order of its members. -/
theorem Shaped.of_ordered (hv : v.DistinctKeys) (h : Shaped name v.ordered) :
    Shaped name v ∧ ignoredValue v.ordered = ignoredValue v := by
  have hfield : isLogical name = false → isObject v = true := fun hname =>
    (isObject_ordered v).symm.trans (h.field hname)
  have hcontainer := (isContainer_ordered v).symm.trans h.container
  cases v with
  | map fields =>
    have hmem := mem_ordered hv.1
    refine ⟨⟨rfl, hfield, ?_⟩, ?_⟩
    · rintro sub ⟨⟩ m hm hfalse
      have hobject := h.members _ rfl (m.1, m.2.ordered) ((hmem _).mpr ⟨m, hm, rfl⟩) hfalse
      exact (isObject_ordered m.2).symm.trans hobject
    · change ((ofList (GoAny.orderedFields fields)).toList.all fun (op, _) => isIdleOperator op) =
        fields.all fun (op, _) => isIdleOperator op
      rw [Bool.eq_iff_iff, all_eq_true, all_eq_true]
      refine ⟨fun hall m hm => hall (m.1, m.2.ordered) ((hmem _).mpr ⟨m, hm, rfl⟩), fun hall m hm => ?_⟩
      obtain ⟨m', hm', rfl⟩ := (hmem _).mp hm
      exact hall m' hm'
  | slice | nilOf => exact ⟨⟨rfl, hfield, nofun⟩, rfl⟩
  | _ => cases hcontainer

/-! ### Rows -/

/-- The value of a column, if it is an integer below `2 ^ 53` or a string. -/
def rowValue : GoAny T → Option RowValue
  | .int _ n => if n.1.natAbs < 2 ^ 53 then some (.int n.1) else none
  | .float64 x => if x.isWhole && x.trunc.natAbs < 2 ^ 53 then some (.int x.trunc) else none
  | .string s => some (.text s)
  | _ => none

/-- A row that holds integers and strings only, and a value for every field. -/
structure PlainRow (schema : SqlMemoryNodeSchema) (row : GoDict T) : Prop where
  values : ∀ (key : String) (v : GoAny T), row[key]? = some v → (rowValue v).isSome = true
  complete : ∀ f ∈ schema.fields, ∃ key : String, (key : GoString) = f.name ∧ key ∈ row

/-- The row as the table has it: a column holds the value of its field. -/
def tableRow (schema : SqlMemoryNodeSchema) (row : GoDict T) (col : GoString) : RowValue :=
  let field := schema.fields.find? fun f => f.resolvedColumnName = col
  let entry := field.bind fun f => row.toList.find? fun entry => (entry.1 : GoString) = f.name
  (entry.bind fun entry => rowValue entry.2).getD (.text [])

theorem PlainRow.isScalar (h : PlainRow schema row) (key : String) : isScalar (row[key]?.getD .nil) = true := by
  cases hvalue : row[key]? with
  | none => rfl
  | some v =>
    have hplain := h.values key v hvalue
    cases v with
    | string | int | float64 => rfl
    | _ => cases hplain

theorem matchMembers_eq (hrow : PlainRow schema row) (h : ∀ m ∈ fields, Shaped m.1 m.2) :
    matchMembers P sameOther row fields = fields.all fun (name, val) => ignoredMember name val := by
  induction fields with
  | nil => rw [matchMembers]; rfl
  | cons m fields ih =>
    obtain ⟨name, val⟩ := m
    have hshaped := h (name, val) mem_cons_self
    have hfield : name = "and" ∨ name = "or" → matchAnd P sameOther row val = true ∧
        matchOr P sameOther row val = true := by
      intro hname
      have hlogical : isLogical name = false := by rcases hname with rfl | rfl <;> decide
      have hobject := hshaped.field hlogical
      cases val with
      | map | nilOf => exact ⟨by rw [matchAnd.eq_def], by rw [matchOr.eq_def]⟩
      | _ => cases hobject
    rw [matchMembers, ih fun m hm => h m (mem_cons_of_mem _ hm), all_cons]
    split_ifs with hand hor
    · rw [(hfield (.inl hand)).1]
      simp only [ignoredMember, hand, decide_true, Bool.true_or]
    · rw [(hfield (.inr hor)).2]
      simp [ignoredMember, hor]
    · rw [matchField_eq (hrow.isScalar name) hshaped.container hshaped.members]
      simp only [ignoredMember, hand, hor, decide_false, Bool.false_or]

/-- The in-memory provider keeps a row if and only if it ignores every member of the filter. -/
theorem matchFilter_eq {filter walked : GoAny T} {text : GoString} {params : List (NwpSqlParam T)}
    (h : translate P schema dialect filter = .ok (text, params)) (hwalk : filter.Walks walked)
    (hrow : PlainRow schema row) : matchFilter P sameOther row walked = ignoredFilter filter := by
  obtain ⟨s, t, htext, -, -⟩ := translate_eq_ok_iff.mp h
  obtain ⟨hordered, hdistinct⟩ := hwalk
  rw [translateText, ← hordered] at htext
  rw [ignoredFilter, ← hordered]
  cases walked with
  | map fields =>
    obtain ⟨⟨clauses, t₁⟩, hclauses, -⟩ := bind_eq_ok_iff.mp htext
    have hmem := mem_ordered hdistinct.1
    have hshaped : ∀ m ∈ fields, Shaped m.1 m.2 ∧ ignoredValue m.2.ordered = ignoredValue m.2 := by
      intro m hm
      have hbuilt := shaped_of_buildMembers hclauses (m.1, m.2.ordered) ((hmem _).mpr ⟨m, hm, rfl⟩)
      exact hbuilt.of_ordered (distinctKeys_of_mem hdistinct.2 m hm)
    rw [matchFilter, matchMembers_eq hrow fun m hm => (hshaped m hm).1, Bool.eq_iff_iff, all_eq_true]
    change _ ↔ (ofList (GoAny.orderedFields fields)).toList.all _ = true
    rw [all_eq_true]
    constructor
    · intro hall m hm
      obtain ⟨m', hm', rfl⟩ := (hmem _).mp hm
      have hignored := hall m' hm'
      simp only [ignoredMember, (hshaped m' hm').2] at hignored ⊢
      exact hignored
    · intro hall m hm
      have hignored := hall (m.1, m.2.ordered) ((hmem _).mpr ⟨m, hm, rfl⟩)
      simp only [ignoredMember, (hshaped m hm).2] at hignored ⊢
      exact hignored
  | _ =>
    rfl

variable (P schema dialect) in
/-- The `WHERE` clause selects the row; without one every row is selected. -/
def selects (compare : RowValue → SqlValue T → Option Ordering) (text : GoString)
    (params : List (NwpSqlParam T)) (row : GoDict T) : Bool :=
  if text = [] then true
  else (Sql.parse dialect.quoting text).bind (evalOn P dialect compare (tableRow schema row) params) = some true

theorem filter_eq_filter_iff {α : Type} {p q : α → Bool} (l : List α) :
    l.filter p = l.filter q ↔ ∀ a ∈ l, p a = q a := by
  refine ⟨fun h a ha => ?_, fun h => filter_congr h⟩
  rw [Bool.eq_iff_iff]
  have hmem : a ∈ l.filter p ↔ a ∈ l.filter q := by rw [h]
  simpa only [mem_filter, ha, true_and] using hmem

/-- The providers agree on the rows of a filter if and only if the filter is ignored and every row is selected,
or it is not and no row is. -/
theorem kept_eq_selected_iff {filter : GoAny T} {text : GoString} {params : List (NwpSqlParam T)}
    (h : translate P schema dialect filter = .ok (text, params))
    (compare : RowValue → SqlValue T → Option Ordering) (walk : GoDict T → GoAny T)
    (hwalk : ∀ row, filter.Walks (walk row)) (rows : List (GoDict T)) (hrows : ∀ row ∈ rows, PlainRow schema row) :
    (rows.filter fun row => matchFilter P sameOther row (walk row)) =
        rows.filter (selects P schema dialect compare text params) ↔
      (ignoredFilter filter = true ∧ ∀ row ∈ rows, selects P schema dialect compare text params row = true) ∨
        (ignoredFilter filter = false ∧
          ∀ row ∈ rows, selects P schema dialect compare text params row = false) := by
  rw [filter_eq_filter_iff]
  have hkept : ∀ row ∈ rows, matchFilter P sameOther row (walk row) = ignoredFilter filter :=
    fun row hrow => matchFilter_eq h (hwalk row) (hrows row hrow)
  cases hignored : ignoredFilter filter with
  | true =>
    simp only [true_and, Bool.true_eq_false, false_and, or_false]
    exact forall₂_congr fun row hrow => by rw [hkept row hrow, hignored, eq_comm]
  | false =>
    simp only [Bool.false_eq_true, false_and, true_and, false_or]
    exact forall₂_congr fun row hrow => by rw [hkept row hrow, hignored, eq_comm]

def compareIntegers : RowValue → SqlValue Empty → Option Ordering
  | .int n, .whole m => some (Ord.compare n m)
  | _, _ => none

def pricedRow : GoDict Empty := .ofList [("id", .string "a"), ("price", .int .int64 ⟨20, by decide⟩)]

def dearerThan (n : IntKind.int64.Value) : GoAny Empty := .map [("price", .map [("$gt", .int .int64 n)])]

theorem walks_dearerThan (n : IntKind.int64.Value) : (dearerThan n).Walks (dearerThan n) := by
  refine ⟨rfl, ?_⟩
  simp [dearerThan, GoAny.DistinctKeys, GoAny.DistinctFields]

theorem plainRow_pricedRow : PlainRow itemsSchema pricedRow := by
  constructor
  · intro key v h
    have hmem := mem_of_getElem?_ofList h
    simp only [mem_cons, not_mem_nil, or_false] at hmem
    rcases hmem with ⟨-, rfl⟩ | ⟨-, rfl⟩ <;> rfl
  · intro f hf
    simp only [itemsSchema, mem_cons, not_mem_nil, or_false] at hf
    rcases hf with rfl | rfl
    · exact ⟨"id", rfl, by decide +kernel⟩
    · exact ⟨"price", rfl, by decide +kernel⟩

/-- No item is dearer, and both providers say so. -/
theorem dearer_than_fifty_agree : ∃ text params,
    translate plainSqlPlatform itemsSchema .postgreSql (dearerThan ⟨50, by decide⟩) = .ok (text, params) ∧
      ([pricedRow].filter fun row => matchFilter plainSqlPlatform (fun _ _ => true) row (dearerThan ⟨50, by decide⟩)) =
        [pricedRow].filter (selects plainSqlPlatform itemsSchema .postgreSql compareIntegers text params) := by
  refine ⟨_, _, rfl, (kept_eq_selected_iff rfl compareIntegers (fun _ => dearerThan ⟨50, by decide⟩)
    (fun _ => walks_dearerThan _) [pricedRow] ?_).mpr (.inr ⟨rfl, ?_⟩)⟩
  · exact forall_mem_singleton.mpr plainRow_pricedRow
  · decide +kernel

/-- The item is dearer, but the in-memory provider does not know the operator. -/
theorem dearer_than_five_dropped : ∃ params,
    translate plainSqlPlatform itemsSchema .postgreSql (dearerThan ⟨5, by decide⟩) =
        .ok ("\"unit_price\" > @p0", params) ∧ PlainRow itemsSchema pricedRow ∧ ([pricedRow].filter fun row =>
        matchFilter plainSqlPlatform (fun _ _ => true) row (dearerThan ⟨5, by decide⟩)) = [] ∧
      [pricedRow].filter (selects plainSqlPlatform itemsSchema .postgreSql compareIntegers "\"unit_price\" > @p0"
        params) = [pricedRow] := by
  refine ⟨_, rfl, plainRow_pricedRow, ?_, ?_⟩
  · decide +kernel
  · rw [filter_eq_self]
    decide +kernel

end Ignored

end Nwp

end NpsSdk
