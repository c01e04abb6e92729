import NpsSdk.NwpSqlQueryBuilder

/-! Injection safety of the query builder. The text of a statement depends on the shape of the filter
and not on its operands, the cursor or the limit. The identifiers in it are names of the schema, as long
as a reader takes every one of them for the name that was quoted: names are put between quotes as they
are, and one that holds the closing quote ends early. -/

open NpsSdk.Core

namespace NpsSdk

open Sql List GoAny

/-! ### The shape of a filter -/

namespace GoAny

variable {T : Type}

mutual

/-- The value without its scalars: keys, nesting and lengths are left. -/
def blank : GoAny T → GoAny T
  | .map fields => .map (blankFields fields)
  | .slice items => .slice (blankItems items)
  | .nilOf kind => .nilOf kind
  | _ => .nil

def blankItems : List (GoAny T) → List (GoAny T)
  | [] => []
  | v :: items => blank v :: blankItems items

def blankFields : List (String × GoAny T) → List (String × GoAny T)
  | [] => []
  | (key, v) :: fields => (key, blank v) :: blankFields fields

end

end GoAny

namespace Nwp

section

variable {T : Type} {P : SqlPlatform T} {schema : SqlMemoryNodeSchema} {dialect : DatabaseDialect}

/-- What a translation shows of its operands: that there is a parameter for each. -/
def TranslatorState.outline (t : TranslatorState T) : Nat × List GoString :=
  (t.paramIndex, t.params.map (·.name))

def outlined {α : Type} (result : Except NwpFilterError (α × TranslatorState T)) :
    Except NwpFilterError (α × Nat × List GoString) :=
  result.map fun (a, t) => (a, t.outline)

variable {t u : TranslatorState T}

theorem outline_withParam (h : t.outline = u.outline) (v w : GoAny T) :
    (t.withParam v).outline = (u.withParam w).outline := by
  obtain ⟨hindex, hnames⟩ := Prod.mk.inj h
  simp only [TranslatorState.outline, TranslatorState.withParam, map_append, map_cons, hindex, hnames]

theorem outlined_ok {α : Type} (a : α) (h : t.outline = u.outline) : outlined (.ok (a, t)) = outlined (.ok (a, u)) := by
  simp only [outlined, Except.map, h]

/-- Two steps that agree up to operands are followed by steps that do. -/
theorem outlined_bind {α β : Type} {x y : Except NwpFilterError (α × TranslatorState T)}
    {f g : α × TranslatorState T → Except NwpFilterError (β × TranslatorState T)} (h : outlined x = outlined y)
    (hnext : ∀ a t u, t.outline = u.outline → outlined (f (a, t)) = outlined (g (a, u))) :
    outlined (x >>= f) = outlined (y >>= g) := by
  cases x with
  | error e =>
    cases y with
    | error e' =>
      cases h
      rfl
    | ok p => cases h
  | ok p =>
    cases y with
    | error e => cases h
    | ok p' =>
      obtain ⟨a, t⟩ := p
      obtain ⟨a', u⟩ := p'
      obtain ⟨rfl, houtline⟩ := Prod.mk.inj (Except.ok.inj h)
      exact hnext a t u houtline

section

variable (h : t.outline = u.outline)
include h

theorem outlined_buildSimple (col fieldName : GoString) (op : String) (v w : GoAny T) :
    outlined (buildSimple P col op fieldName v t) = outlined (buildSimple P col op fieldName w u) := by
  have hindex : t.paramIndex = u.paramIndex := congrArg Prod.fst h
  unfold buildSimple
  rw [hindex]
  split
  all_goals first | exact outlined_ok _ (outline_withParam h _ _) | rfl

theorem outlined_buildIn (col : GoString) (arr : GoAny T) (negate : Bool) :
    outlined (buildIn P col arr negate t) = outlined (buildIn P col arr.blank negate u) := by
  have hindex : t.paramIndex = u.paramIndex := congrArg Prod.fst h
  cases arr with
  | slice items =>
    cases items with
    | nil => exact outlined_ok _ h
    | cons =>
      simp only [buildIn, hindex]
      exact outlined_ok _ (outline_withParam h _ _)
  | nilOf kind =>
    cases kind with
    | slice => exact outlined_ok _ h
    | _ => rfl
  | _ => rfl

theorem outlined_buildBetween (col : GoString) (arr : GoAny T) :
    outlined (buildBetween P col arr t) = outlined (buildBetween P col arr.blank u) := by
  have hindex : t.paramIndex = u.paramIndex := congrArg Prod.fst h
  cases arr with
  | slice items =>
    match items with
    | [] => rfl
    | [v] => rfl
    | [low, high] =>
      simp only [buildBetween, hindex]
      exact outlined_ok _ (outline_withParam (outline_withParam h _ _) _ _)
    | _ :: _ :: _ :: _ => rfl
  | nilOf kind => cases kind <;> rfl
  | _ => rfl

theorem outlined_buildOperator (field : SqlMemoryNodeField) (op : String) (value : GoAny T) :
    outlined (buildOperator P field op value t) = outlined (buildOperator P field op value.blank u) := by
  unfold buildOperator
  split
  · exact outlined_buildIn h _ value false
  · exact outlined_buildIn h _ value true
  · exact outlined_buildBetween h _ value
  · exact outlined_buildSimple h _ _ _ _ _

theorem outlined_buildOperators (field : SqlMemoryNodeField) (ops : List (String × GoAny T)) :
    outlined (buildOperators P field ops t) = outlined (buildOperators P field (blankFields ops) u) := by
  induction ops generalizing t u with
  | nil => exact outlined_ok _ h
  | cons member ops ih =>
    refine outlined_bind (outlined_buildOperator h field member.1 member.2) ?_
    intro clause t₁ u₁ h₁
    refine outlined_bind (ih h₁) ?_
    intro clauses t₂ u₂ h₂
    exact outlined_ok _ h₂

theorem outlined_buildFieldCondition (field : SqlMemoryNodeField) (condition : GoAny T) :
    outlined (buildFieldCondition P field condition t) = outlined (buildFieldCondition P field condition.blank u) := by
  cases condition with
  | map ops =>
    refine outlined_bind (outlined_buildOperators h field ops) ?_
    intro clauses t₁ u₁ h₁
    exact outlined_ok _ h₁
  | nilOf kind =>
    cases kind with
    | map => exact outlined_ok _ h
    | _ => rfl
  | _ => rfl

theorem outlined_buildField (name : String) (val : GoAny T) :
    outlined (buildField P schema name val t) = outlined (buildField P schema name val.blank u) := by
  rw [buildField, buildField]
  cases validateField P schema name with
  | error e => rfl
  | ok field => exact outlined_buildFieldCondition h field val

end

mutual

theorem outlined_buildMembers (fields : List (String × GoAny T)) (t u : TranslatorState T) (h : t.outline = u.outline) :
    outlined (buildMembers P schema dialect fields t) =
      outlined (buildMembers P schema dialect (blankFields fields) u) := by
  cases fields with
  | nil =>
    exact outlined_ok _ h
  | cons member fields =>
    obtain ⟨name, val⟩ := member
    refine outlined_bind ?_ ?_
    · split
      · exact outlined_buildLogical val name t u h
      · exact outlined_buildField h name val
    · intro clause t₁ u₁ h₁
      refine outlined_bind (outlined_buildMembers fields t₁ u₁ h₁) ?_
      intro clauses t₂ u₂ h₂
      exact outlined_ok _ h₂

theorem outlined_buildLogical (value : GoAny T) (op : String) (t u : TranslatorState T) (h : t.outline = u.outline) :
    outlined (buildLogical P schema dialect op value t) =
      outlined (buildLogical P schema dialect op value.blank u) := by
  rw [buildLogical.eq_def, buildLogical.eq_def]
  dsimp only
  split
  · cases value with
    | map sub =>
      refine outlined_bind (outlined_buildMembers sub t u h) ?_
      intro clauses t₁ u₁ h₁
      exact outlined_ok _ h₁
    | nilOf kind =>
      cases kind with
      | map => exact outlined_ok _ h
      | _ => rfl
    | _ => rfl
  · cases logicalSeparator op with
    | error e => rfl
    | ok =>
      cases value with
      | slice items =>
        refine outlined_bind (outlined_buildElements items op t u h) ?_
        intro parts t₁ u₁ h₁
        exact outlined_ok _ h₁
      | nilOf kind =>
        cases kind with
        | slice => exact outlined_ok _ h
        | _ => rfl
      | _ => rfl

theorem outlined_buildElements (items : List (GoAny T)) (op : String) (t u : TranslatorState T)
    (h : t.outline = u.outline) : outlined (buildElements P schema dialect op items t) =
      outlined (buildElements P schema dialect op (blankItems items) u) := by
  cases items with
  | nil =>
    exact outlined_ok _ h
  | cons item items =>
    cases item with
    | map sub =>
      refine outlined_bind (outlined_buildMembers sub t u h) ?_
      intro clauses t₁ u₁ h₁
      refine outlined_bind (outlined_buildElements items op t₁ u₁ h₁) ?_
      intro parts t₂ u₂ h₂
      exact outlined_ok _ h₂
    | nilOf kind =>
      cases kind with
      | map =>
        exact outlined_buildElements items op t u h
      | _ => rfl
    | _ => rfl

end

theorem outlined_buildObject (obj : List (String × GoAny T)) (t u : TranslatorState T) (h : t.outline = u.outline) :
    outlined (buildObject P schema dialect obj t) =
      outlined (buildObject P schema dialect (blankFields obj) u) := by
  refine outlined_bind (outlined_buildMembers obj t u h) ?_
  intro clauses t₁ u₁ h₁
  exact outlined_ok _ h₁

/-- Filters of one shape give the same text and the same parameters. -/
theorem outlined_translateText {filter filter' : GoAny T} (h : filter.ordered.blank = filter'.ordered.blank) :
    outlined (translateText P schema dialect filter) = outlined (translateText P schema dialect filter') := by
  rw [translateText, translateText]
  generalize filter.ordered = v at h ⊢
  generalize filter'.ordered = w at h ⊢
  cases v with
  | map obj =>
    cases w with
    | map obj' =>
      have hfields : blankFields obj = blankFields obj' := map.inj h
      have hblank : outlined (buildObject P schema dialect obj ⟨0, []⟩) =
          outlined (buildObject P schema dialect (blankFields obj) ⟨0, []⟩) :=
        outlined_buildObject obj _ _ rfl
      rw [hfields] at hblank
      exact hblank.trans (outlined_buildObject obj' _ _ rfl).symm
    | _ => cases h
  | _ =>
    cases w with
    | map obj' => cases h
    | _ => rfl

end

/-! ### The statement is put together from plain pieces -/

section

open Sql (Composed)

variable {T : Type} {P : SqlPlatform T} {schema : SqlMemoryNodeSchema} {dialect : DatabaseDialect}

theorem quoting_reserved (dialect : DatabaseDialect) : dialect.quoting.Reserved := by
  cases dialect <;> exact ⟨by decide, by decide, by decide, by decide⟩

theorem isNameChar_of_isDigit {c : Char} (h : c.isDigit = true) : isNameChar (.char c) = true := by
  simp only [Char.isDigit, Bool.and_eq_true, decide_eq_true_eq] at h
  simp only [isNameChar, Bool.or_eq_true, Bool.and_eq_true, decide_eq_true_eq]
  exact Or.inr h

theorem paramName_isPlain (index : Nat) : (paramName index).all isNameChar = true := by
  rw [paramName, GoString.ofChars, all_map, all_cons, Bool.and_eq_true]
  refine ⟨by decide, all_eq_true.mpr fun c hc => ?_⟩
  exact isNameChar_of_isDigit (Nat.isDigit_of_mem_toDigits (by decide) (by decide) hc)

theorem separates_separator {separator : GoString} (h : separator = " AND " ∨ separator = " OR ") :
    (Sql.Piece.fixed separator).isPlain = true ∧ separates separator = true := by
  rcases h with rfl | rfl <;> exact ⟨by decide, by decide⟩

theorem separates_operator {operator : GoString} (h : operator ∈ operatorTexts) :
    (Sql.Piece.fixed operator).isPlain = true ∧ separates operator = true := by
  simp only [operatorTexts, mem_cons, not_mem_nil, or_false] at h
  rcases h with rfl | rfl | rfl | rfl | rfl | rfl | rfl | rfl | rfl <;> exact ⟨by decide, by decide⟩

theorem Emits.composed {columns : List GoString} {t t' : TranslatorState T} {clauses : List Sql.Text}
    (h : Emits columns t clauses t') : ∀ s ∈ clauses, Composed s := by
  induction h with
  | nil t => exact nofun
  | empty _ ih => exact forall_mem_cons.mpr ⟨.nil, ih⟩
  | constant negate _ ih =>
    refine forall_mem_cons.mpr ⟨.singleton ?_, ih⟩
    cases negate <;> decide
  | simple col hop value _ ih =>
    obtain ⟨hplain, hsep⟩ := separates_operator hop
    refine forall_mem_cons.mpr ⟨?_, ih⟩
    exact .cons_fixed rfl hsep (.fixed_cons hplain (.singleton (paramName_isPlain _)))
  | between col low high _ ih =>
    refine forall_mem_cons.mpr ⟨?_, ih⟩
    refine .cons_fixed rfl (by decide) (.fixed_cons (by decide) ?_)
    refine .cons_fixed (paramName_isPlain _) (by decide) (.fixed_cons (by decide) ?_)
    exact .singleton (paramName_isPlain _)
  | group hsep _ _ ihclauses ih =>
    obtain ⟨hplain, hseparates⟩ := separates_separator hsep
    exact forall_mem_cons.mpr ⟨.group hplain hseparates ihclauses, ih⟩
  | negation _ _ ihinner ih =>
    have hinner := ihinner _ mem_cons_self
    refine forall_mem_cons.mpr ⟨.fixed_cons (by decide) ?_, ih⟩
    exact hinner.append_fixed (by decide) (.singleton (by decide))

theorem Emits.identifiers_eq {columns : List GoString} {t t' : TranslatorState T} {clauses : List Sql.Text}
    (h : Emits columns t clauses t') : clauses.flatMap identifiers = columns := by
  induction h with
  | nil t => rfl
  | empty _ ih | constant negate _ ih => exact ih
  | simple col hop value _ ih | between col low high _ ih => exact congrArg (cons col) ih
  | group hsep _ _ ihclauses ih =>
    rw [flatMap_cons, ih, ← ihclauses]
    exact congrArg (· ++ _) (filterMap_group Piece.identifier?_fixed _ _)
  | negation _ _ ihinner ih =>
    rw [flatMap_singleton] at ihinner
    rw [flatMap_cons, ih, ← ihinner]
    exact congrArg (· ++ _) (filterMap_enclosed Piece.identifier?_fixed _ _ _)

variable {s : Sql.Text} {f : SqlMemoryNodeField} {name : GoString}

theorem emits_translateText {filter : GoAny T} {t : TranslatorState T}
    (h : translateText P schema dialect filter = .ok (s, t)) : Emits (filterColumns P schema filter) ⟨0, []⟩ [s] t := by
  rw [translateText] at h
  rw [filterColumns]
  split at h
  · obtain ⟨⟨clauses, t₁⟩, hclauses, h⟩ := bind_eq_ok_iff.mp h
    cases h
    exact emits_joinClauses (.inl rfl) (emits_buildMembers _ _ _ _ hclauses)
  · cases h
    exact .empty (.nil _)

/-- The names a schema has: its table, its primary key, its columns and its fields. -/
def SqlMemoryNodeSchema.names (schema : SqlMemoryNodeSchema) : List GoString :=
  schema.tableName :: schema.primaryKey :: (schema.columns ++ schema.fields.map (·.name))

theorem column_mem_names {col : GoString} (h : col ∈ schema.columns) : col ∈ schema.names :=
  mem_cons_of_mem _ (mem_cons_of_mem _ (mem_append_left _ h))

theorem column_mem_of_getField (h : schema.getField P name = some f) : f.resolvedColumnName ∈ schema.columns :=
  mem_map_of_mem (mem_of_find?_eq_some h)

theorem fieldColumns_subset (name : String) (val : GoAny T) : fieldColumns P schema name val ⊆ schema.columns := by
  rw [fieldColumns]
  cases hget : schema.getField P name with
  | none => exact nil_subset _
  | some f =>
    cases val with
    | map ops =>
      intro col hcol
      obtain ⟨⟨op, value⟩, -, hcol⟩ := mem_flatMap.mp hcol
      dsimp only [operatorColumns] at hcol
      split_ifs at hcol
      · cases hcol
      · rw [mem_singleton.mp hcol]
        exact column_mem_of_getField hget
    | _ => exact nil_subset _

mutual

theorem memberColumns_subset (fields : List (String × GoAny T)) :
    memberColumns P schema fields ⊆ schema.columns := by
  match fields with
  | [] => exact nil_subset _
  | (name, val) :: fields =>
    rw [memberColumns]
    refine append_subset.mpr ⟨?_, memberColumns_subset fields⟩
    split
    · exact logicalColumns_subset val
    · exact fieldColumns_subset name val

theorem logicalColumns_subset (value : GoAny T) : logicalColumns P schema value ⊆ schema.columns := by
  cases value with
  | map sub => exact memberColumns_subset sub
  | slice items => exact elementColumns_subset items
  | _ => exact nil_subset _

theorem elementColumns_subset (items : List (GoAny T)) : elementColumns P schema items ⊆ schema.columns := by
  match items with
  | [] => exact nil_subset _
  | item :: items =>
    have hrest := elementColumns_subset items
    cases item with
    | map sub => exact append_subset.mpr ⟨memberColumns_subset sub, hrest⟩
    | _ => exact hrest

end

theorem name_mem_of_getField (h : schema.getField P name = some f) : f.name ∈ schema.names :=
  mem_cons_of_mem _ (mem_cons_of_mem _
    (mem_append_right _ (mem_map_of_mem (mem_of_find?_eq_some h))))

theorem composed_selectPart (f : SqlMemoryNodeField) : Composed (selectPart f) := by
  rw [selectPart]
  split
  · exact .cons_fixed rfl (by decide) (.fixed_cons (by decide) (.singleton rfl))
  · exact .singleton rfl

theorem composed_buildSelectList {fields : List GoString} (h : buildSelectList P schema fields = .ok s) :
    Composed s := by
  rw [buildSelectList] at h
  split at h
  · cases h
    refine .join (by decide) (by decide) fun s hs => ?_
    obtain ⟨f, -, rfl⟩ := mem_map.mp hs
    exact .singleton rfl
  · obtain ⟨found, -, h⟩ := bind_eq_ok_iff.mp h
    cases h
    refine .join (by decide) (by decide) fun s hs => ?_
    obtain ⟨f, -, rfl⟩ := mem_map.mp hs
    exact composed_selectPart f

/-- What a loop gives has been looked up. -/
theorem forall_of_mapM {α β : Type} {f : α → Except NwpFilterError β} {Q : β → Prop}
    (hf : ∀ a b, f a = .ok b → Q b) {as : List α} {bs : List β} (h : as.mapM f = .ok bs) : ∀ b ∈ bs, Q b := by
  induction as generalizing bs with
  | nil =>
    cases h
    exact nofun
  | cons a as ih =>
    rw [mapM_cons] at h
    obtain ⟨b, hb, h⟩ := bind_eq_ok_iff.mp h
    obtain ⟨rest, hrest, h⟩ := bind_eq_ok_iff.mp h
    cases h
    exact forall_mem_cons.mpr ⟨hf a b hb, ih hrest⟩

theorem composed_orderPart {o : SqlOrderClause} (h : orderPart P schema o = .ok s) : Composed s := by
  rw [orderPart] at h
  split at h
  · cases h
  cases h
  refine .cons_fixed rfl ?_ (.singleton ?_)
  · split <;> decide
  · split <;> decide

theorem composed_orderText {order : List SqlOrderClause} (h : orderText P schema order = .ok s) : Composed s := by
  rw [orderText] at h
  split at h
  · cases h
    exact .singleton rfl
  obtain ⟨parts, hparts, h⟩ := bind_eq_ok_iff.mp h
  cases h
  exact .join (by decide) (by decide) (forall_of_mapM (fun _ _ => composed_orderPart) hparts)

theorem composed_pagination (dialect : DatabaseDialect) : Composed (pagination dialect) := by
  cases dialect
  · refine .fixed_cons (by decide) (.cons_fixed (by decide) (by decide) (.fixed_cons (by decide) ?_))
    exact .cons_fixed (by decide) (by decide) (.singleton (by decide))
  · refine .fixed_cons (by decide) (.cons_fixed (by decide) (by decide) (.fixed_cons (by decide) ?_))
    exact .singleton (by decide)

variable (dialect) in
theorem composed_orderBy {orderBy : Sql.Text} (h : Composed orderBy) : Composed (orderBy ++ pagination dialect) := by
  cases dialect with
  | sqlServer => exact h.append_fixed (by decide) (composed_pagination .sqlServer)
  | postgreSql => exact h.append_fixed (by decide) (composed_pagination .postgreSql)

theorem composed_between {s s' : Sql.Text} (h : Composed s) (text : GoString)
    (hplain : (Sql.Piece.fixed text).isPlain = true) (hsep : separates text = true) (h' : Composed s') :
    Composed (s ++ .fixed text :: s') := h.append_fixed hsep (h'.fixed_cons hplain)

/-- Whatever the client sends, the statement can be read back. -/
theorem composed_buildQueryText {options : SqlQueryOptions} {frame : QueryFrame T}
    {params : List (NwpSqlParam T)} (h : buildQueryText P schema dialect options frame = .ok (s, params)) :
    Composed s := by
  obtain ⟨selectList, hselect, h⟩ := bind_eq_ok_iff.mp h
  obtain ⟨⟨condition, t⟩, hcondition, h⟩ := bind_eq_ok_iff.mp h
  obtain ⟨orderBy, horder, h⟩ := bind_eq_ok_iff.mp h
  cases h
  have hcondition := (emits_translateText hcondition).composed _ mem_cons_self
  have htail := composed_orderBy dialect (composed_orderText horder)
  have htable : Composed [.identifier schema.tableName] := .singleton rfl
  have hfrom : Composed (.identifier schema.tableName ::
      (whereText dialect condition ++ .fixed " ORDER BY " :: (orderBy ++ pagination dialect))) := by
    rw [whereText]
    split
    · exact composed_between htable " ORDER BY " (by decide) (by decide) htail
    · have hwhere := composed_between hcondition " ORDER BY " (by decide) (by decide) htail
      exact composed_between htable " WHERE " (by decide) (by decide) hwhere
  have hall := composed_between (composed_buildSelectList hselect) " FROM " (by decide) (by decide) hfrom
  exact hall.fixed_cons (by decide)

end

/-! ### The names of a request -/

section

variable {T : Type} {P : SqlPlatform T} {schema : SqlMemoryNodeSchema} {dialect : DatabaseDialect}
  {t t' : TranslatorState T} {s : Sql.Text} {clauses : List Sql.Text} {field : SqlMemoryNodeField}

/-- What a loop gives for each name is what is said of the name. -/
theorem flatMap_of_mapM {α β γ : Type} {f : α → Except NwpFilterError β} {g : β → List γ} {g' : α → List γ}
    (hf : ∀ a b, f a = .ok b → g b = g' a) {as : List α} {bs : List β} (h : as.mapM f = .ok bs) :
    bs.flatMap g = as.flatMap g' := by
  induction as generalizing bs with
  | nil =>
    cases h
    rfl
  | cons a as ih =>
    rw [mapM_cons] at h
    obtain ⟨b, hb, h⟩ := bind_eq_ok_iff.mp h
    obtain ⟨rest, hrest, h⟩ := bind_eq_ok_iff.mp h
    cases h
    rw [flatMap_cons, flatMap_cons, hf a b hb, ih hrest]

variable (P schema)

/-- The names of a field that is selected: its column and, where that has a name of its own, the field's. -/
def selectedNames (name : GoString) : List GoString :=
  (schema.getField P name).elim [] fun f => f.resolvedColumnName :: if f.columnName ≠ [] then [f.name] else []

def orderColumns (o : SqlOrderClause) : List GoString :=
  ((schema.getField P o.field).map (·.resolvedColumnName)).toList

/-- Without a list of fields all columns of the schema. -/
def selectNames (fields : List GoString) : List GoString :=
  if fields = [] then schema.columns else fields.flatMap (selectedNames P schema)

def orderNames (order : List SqlOrderClause) : List GoString :=
  if order = [] then [schema.primaryKey] else order.flatMap (orderColumns P schema)

/-- The names that a frame asks for, in the order of the statement: what is selected, the table, the columns of
the filter and those of the order. -/
def quotedNames (frame : QueryFrame T) : List GoString :=
  selectNames P schema (frame.fields.getD []) ++ schema.tableName ::
    (filterColumns P schema frame.filter ++ orderNames P schema (orderClausesFromJSON frame.order))

variable {P schema}

section

variable {pick : Piece → Option GoString} (hfixed : ∀ text, pick (.fixed text) = none)
include hfixed

theorem filterMap_buildSelectList {fields : List GoString} (h : buildSelectList P schema fields = .ok s) :
    s.filterMap pick = ((selectNames P schema fields).map Piece.identifier).filterMap pick := by
  rw [buildSelectList] at h
  rw [selectNames]
  split_ifs at h with hfields
  · cases h
    have hcolumns : schema.columns.map Piece.identifier =
        (schema.fields.map fun f => [Piece.identifier f.resolvedColumnName]).flatten := by
      rw [SqlMemoryNodeSchema.columns, map_map]
      exact map_eq_flatMap
    rw [if_pos hfields, filterMap_join hfixed, hcolumns, filterMap_flatten]
    rfl
  · obtain ⟨found, hfound, h⟩ := bind_eq_ok_iff.mp h
    cases h
    rw [if_neg hfields, filterMap_join hfixed, flatMap_map, map_flatMap, filterMap_flatMap]
    refine flatMap_of_mapM (fun name f hlookup => ?_) hfound
    split at hlookup
    · rename_i hget
      cases hlookup
      rw [selectedNames, hget, Option.elim_some, selectPart]
      split <;> simp [filterMap_cons, hfixed]
    · cases hlookup

theorem filterMap_orderText {order : List SqlOrderClause} (h : orderText P schema order = .ok s) :
    s.filterMap pick = ((orderNames P schema order).map Piece.identifier).filterMap pick := by
  rw [orderText] at h
  rw [orderNames]
  split_ifs at h with horder
  · cases h
    rw [if_pos horder]
    rfl
  · obtain ⟨parts, hparts, h⟩ := bind_eq_ok_iff.mp h
    cases h
    rw [if_neg horder, filterMap_join hfixed, map_flatMap, filterMap_flatMap]
    refine flatMap_of_mapM (fun o part hpart => ?_) hparts
    rw [orderPart] at hpart
    split at hpart
    · cases hpart
    · rename_i f hget
      cases hpart
      simp [orderColumns, hget, filterMap_cons, hfixed]

/-- What a statement holds besides its fixed texts. -/
theorem filterMap_buildQueryText {options : SqlQueryOptions} {frame : QueryFrame T}
    {params : List (NwpSqlParam T)} (h : buildQueryText P schema dialect options frame = .ok (s, params)) :
    ∃ condition t limit offset, translateText P schema dialect frame.filter = .ok (condition, t) ∧
      params = t.params ++ pageParams limit offset ∧
      s.filterMap pick = ((selectNames P schema (frame.fields.getD [])).map Piece.identifier).filterMap pick ++
        ([Piece.identifier schema.tableName].filterMap pick ++ (condition.filterMap pick ++
          (((orderNames P schema (orderClausesFromJSON frame.order)).map Piece.identifier).filterMap pick ++
            (pagination dialect).filterMap pick))) := by
  obtain ⟨selectList, hselect, h⟩ := bind_eq_ok_iff.mp h
  obtain ⟨⟨condition, t⟩, hcondition, h⟩ := bind_eq_ok_iff.mp h
  obtain ⟨orderBy, horder, h⟩ := bind_eq_ok_iff.mp h
  cases h
  refine ⟨condition, t, _, _, hcondition, rfl, ?_⟩
  have hwhere : (whereText dialect condition).filterMap pick = condition.filterMap pick := by
    rw [whereText]
    split
    case isTrue hempty => exact (filterMap_eq_nil_of_spell hfixed hempty).symm
    case isFalse => exact filterMap_fixed hfixed _ _
  rw [statementText, filterMap_fixed hfixed, filterMap_append, filterMap_buildSelectList hfixed hselect,
    filterMap_fixed hfixed, ← singleton_append, filterMap_append, filterMap_append, hwhere, filterMap_fixed hfixed,
    filterMap_append, filterMap_orderText hfixed horder]

end

theorem filterMap_identifier (names : List GoString) :
    (names.map Piece.identifier).filterMap Piece.identifier? = names := by
  rw [filterMap_map]
  exact filterMap_some

/-- A statement that is built quotes the names its frame asks for. -/
theorem identifiers_buildQueryText {options : SqlQueryOptions} {frame : QueryFrame T}
    {params : List (NwpSqlParam T)} (h : buildQueryText P schema dialect options frame = .ok (s, params)) :
    identifiers s = quotedNames P schema frame := by
  obtain ⟨condition, t, _, _, hcondition, -, hs⟩ := filterMap_buildQueryText Piece.identifier?_fixed h
  have hpage : (pagination dialect).filterMap Piece.identifier? = [] := by cases dialect <;> rfl
  have hfilter := (emits_translateText hcondition).identifiers_eq
  rw [flatMap_singleton, identifiers] at hfilter
  rw [identifiers, hs, filterMap_identifier, filterMap_identifier, hpage, append_nil, hfilter]
  rfl

/-- The names a frame asks for are names of the schema. -/
theorem quotedNames_known (frame : QueryFrame T) : ∀ name ∈ quotedNames P schema frame, name ∈ schema.names := by
  rw [quotedNames, selectNames, orderNames, forall_mem_append, forall_mem_cons, forall_mem_append]
  refine ⟨?_, mem_cons_self, ?_, ?_⟩
  · split_ifs
    · exact fun name => column_mem_names
    · intro name hname
      obtain ⟨field, -, hname⟩ := mem_flatMap.mp hname
      rw [selectedNames] at hname
      cases hget : schema.getField P field with
      | none =>
        rw [hget] at hname
        cases hname
      | some f =>
        rw [hget, Option.elim_some] at hname
        rcases mem_cons.mp hname with rfl | hname
        · exact column_mem_names (column_mem_of_getField hget)
        split_ifs at hname
        · rw [mem_singleton.mp hname]
          exact name_mem_of_getField hget
        · cases hname
  · rw [filterColumns]
    split
    · exact fun name hname => column_mem_names (memberColumns_subset _ hname)
    · exact nofun
  · split_ifs
    · exact forall_mem_singleton.mpr (mem_cons_of_mem _ mem_cons_self)
    · intro name hname
      obtain ⟨o, -, hname⟩ := mem_flatMap.mp hname
      obtain ⟨f, hget, rfl⟩ := Option.map_eq_some_iff.mp (Option.mem_toList.mp hname)
      exact column_mem_names (column_mem_of_getField hget)

/-- Whatever the client sends, the statement quotes names of the schema only. -/
theorem identifiers_known {options : SqlQueryOptions} {frame : QueryFrame T} {params : List (NwpSqlParam T)}
    (h : buildQueryText P schema dialect options frame = .ok (s, params)) :
    ∀ name ∈ identifiers s, name ∈ schema.names := by
  rw [identifiers_buildQueryText h]
  exact quotedNames_known frame

end

/-! ### Injection safety -/

section

variable {T : Type} (P : SqlPlatform T) (schema : SqlMemoryNodeSchema) (dialect : DatabaseDialect)
  (options : SqlQueryOptions)

/-- Frames that differ in the operands of the filter, the cursor and the limit only. -/
structure SameQuery (frame frame' : QueryFrame T) : Prop where
  rest : frame' = { frame with filter := frame'.filter, cursor := frame'.cursor, limit := frame'.limit }
  shape : frame.filter.ordered.blank = frame'.filter.ordered.blank

/-- The text of a statement and the names of its parameters. -/
def shapeOf (statement : GoString × List (NwpSqlParam T)) : GoString × List GoString :=
  (statement.1, statement.2.map (·.name))

def statementShape (frame : QueryFrame T) : Except NwpFilterError (GoString × List GoString) :=
  (buildQuerySQL P schema dialect options frame).map shapeOf

/-- Operands leave the statement as it is, and a reader of the statement sees the names that the frame asks for,
which the schema has. -/
structure InjectionSafe (frame : QueryFrame T) : Prop where
  operands : ∀ frame', SameQuery frame frame' →
    statementShape P schema dialect options frame' = statementShape P schema dialect options frame
  identifiers : ∀ text params, buildQuerySQL P schema dialect options frame = .ok (text, params) →
    quotedIdentifiers dialect.quoting text = quotedNames P schema frame ∧
      ∀ name ∈ quotedIdentifiers dialect.quoting text, name ∈ schema.names

variable {P schema dialect options}

theorem map_name_pageParams (limit offset : Int64) :
    (pageParams limit offset : List (NwpSqlParam T)).map (·.name) = ["_limit", "_offset"] := rfl

/-- A statement as far as it shows the outcome of the translation. -/
theorem statementShape_of_outlined {fields : List GoString} {order : List SqlOrderClause}
    {filter filter' : GoAny T} {limit limit' : UInt64} {cursor cursor' : GoString}
    (h : outlined (translateText P schema dialect filter) = outlined (translateText P schema dialect filter')) :
    (build P schema dialect fields filter order limit cursor options).map shapeOf =
      (build P schema dialect fields filter' order limit' cursor' options).map shapeOf := by
  rw [build, build, buildText, buildText]
  cases buildSelectList P schema fields with
  | error e => simp only [bind, Except.bind, Except.map]
  | ok =>
    cases hfirst : translateText P schema dialect filter with
    | error e =>
      cases hsecond : translateText P schema dialect filter' with
      | error e' =>
        rw [hfirst, hsecond] at h
        cases h
        simp only [bind, Except.bind]
      | ok p =>
        rw [hfirst, hsecond] at h
        cases h
    | ok p =>
      cases hsecond : translateText P schema dialect filter' with
      | error e =>
        rw [hfirst, hsecond] at h
        cases h
      | ok p' =>
        rw [hfirst, hsecond] at h
        obtain ⟨condition, t⟩ := p
        obtain ⟨rfl, houtline⟩ := Prod.mk.inj (Except.ok.inj h)
        have hnames := congrArg Prod.snd houtline
        cases orderText P schema order with
        | error e => simp only [bind, Except.bind, Except.map]
        | ok =>
          simp only [TranslatorState.outline] at hnames
          simp only [bind, Except.bind, Except.map, shapeOf, map_append, hnames, map_name_pageParams]

theorem statementShape_eq {frame frame' : QueryFrame T} (h : SameQuery frame frame') :
    statementShape P schema dialect options frame' = statementShape P schema dialect options frame := by
  have hfields : frame'.fields = frame.fields := by rw [h.rest]
  have horder : frame'.order = frame.order := by rw [h.rest]
  rw [statementShape, buildQuerySQL, hfields, horder]
  exact statementShape_of_outlined (outlined_translateText h.shape).symm

theorem buildQuerySQL_eq_ok_iff {frame : QueryFrame T} {text : GoString} {params : List (NwpSqlParam T)} :
    buildQuerySQL P schema dialect options frame = .ok (text, params) ↔
      ∃ s, buildQueryText P schema dialect options frame = .ok (s, params) ∧ spell dialect.quoting s = text := by
  constructor
  · intro h
    obtain ⟨⟨s, params'⟩, hs, h⟩ := bind_eq_ok_iff.mp h
    cases h
    exact ⟨s, hs, rfl⟩
  · rintro ⟨s, hs, rfl⟩
    exact bind_eq_ok_iff.mpr ⟨_, hs, rfl⟩

/-- A request is safe exactly if it is refused or none of the names it asks for holds the closing quote. -/
theorem injectionSafe_iff (frame : QueryFrame T) : InjectionSafe P schema dialect options frame ↔
      (∃ e, buildQuerySQL P schema dialect options frame = .error e) ∨
        ∀ name ∈ quotedNames P schema frame, .char dialect.quoting.closing ∉ name := by
  cases hbuild : buildQueryText P schema dialect options frame with
  | error e =>
    have hsql : buildQuerySQL P schema dialect options frame = .error e := congrArg (· >>= _) hbuild
    refine iff_of_true ⟨fun frame' => statementShape_eq, fun text params h => ?_⟩ (.inl ⟨e, hsql⟩)
    rw [hsql] at h
    cases h
  | ok result =>
    obtain ⟨s, params⟩ := result
    have hsql := buildQuerySQL_eq_ok_iff.mpr ⟨s, hbuild, rfl⟩
    have haccepted : ¬ ∃ e, buildQuerySQL P schema dialect options frame = .error e := by
      rintro ⟨e, he⟩
      rw [hsql] at he
      cases he
    have hnames := identifiers_buildQueryText hbuild
    have hread := quotedIdentifiers_spell_iff (quoting_reserved dialect) (composed_buildQueryText hbuild)
    rw [or_iff_right haccepted, ← hnames, ← hread]
    constructor
    · intro hsafe
      rw [hnames]
      exact (hsafe.identifiers _ params hsql).1
    · intro hread
      refine ⟨fun frame' => statementShape_eq, ?_⟩
      intro text params' hsql'
      cases hsql.symm.trans hsql'
      rw [hread, ← hnames]
      exact ⟨rfl, identifiers_known hbuild⟩

def plainSqlPlatform : SqlPlatform Empty where
  toPlatform := plainPlatform
  foldChar := id
  parseFloatText _ := none
  printOther _ := []

def quotedColumnSchema : SqlMemoryNodeSchema where
  tableName := "items"
  primaryKey := "id"
  fields := [⟨"id", []⟩, ⟨"a\"b", []⟩]

def emptyQuery : QueryFrame Empty where
  anchorRef := []
  filter := .nil
  order := .nil
  fields := none
  vectorSearch := .nil
  cursor := none
  tokenBudget := none
  tokenizer := none
  requestID := none
  autoAnchor := none
  stream := none
  aggregate := .nil
  limit := none
  offset := none
  depth := none

/-- The statement that selects all columns of the table; a reader takes ` FROM ` for an identifier. -/
theorem quote_in_column_misread :
    (buildQuerySQL plainSqlPlatform quotedColumnSchema .postgreSql ⟨20, 1000⟩ emptyQuery).map Prod.fst =
        .ok "SELECT \"id\", \"a\"b\" FROM \"items\" ORDER BY \"id\" LIMIT @_limit OFFSET @_offset" ∧
      (" FROM " : GoString) ∉ quotedColumnSchema.names ∧
      ¬ InjectionSafe plainSqlPlatform quotedColumnSchema .postgreSql ⟨20, 1000⟩ emptyQuery := by
  have hunknown : (" FROM " : GoString) ∉ quotedColumnSchema.names := by decide +kernel
  refine ⟨rfl, hunknown, ?_⟩
  intro hsafe
  have hknown := (hsafe.identifiers _ _ rfl).2
  exact hunknown (hknown _ (by decide +kernel))

end

end Nwp

end NpsSdk
