import NpsSdk.NwpInjectionSafety

/-! Rebinding the named parameters of a statement to the placeholders of a driver. The text is walked
from left to right; an `@` with the longest name after it is replaced where there is a parameter of the
name, and everything else is copied. -/

open NpsSdk.Core

namespace NpsSdk.Nwp

open Sql List GoString List TranslatorState

section Rebind

variable {T : Type}

def placeholder (dialect : DatabaseDialect) (pos : Nat) : GoString :=
  match dialect with
  | .postgreSql => ofChars ('$' :: intText pos)
  | .sqlServer => "?"

/-- The values a parameter stands for: the items of a list, or the one value. -/
def boundValues (val : GoAny T) : List (GoAny T) := (asSlice val).getD [val]

/-- The placeholders after the first `pos`, in parentheses for a list. -/
def placeholders (dialect : DatabaseDialect) (pos : Nat) (val : GoAny T) : GoString :=
  match asSlice val with
  | some items =>
    "(" ++ GoString.join ", " ((range' (pos + 1) items.length).map (placeholder dialect)) ++ ")"
  | none => placeholder dialect (pos + 1)

/-- A later parameter of the same name replaces an earlier one. -/
def byName (params : List (NwpSqlParam T)) (name : GoString) : Option (GoAny T) :=
  (params.reverse.find? fun p => p.name = name).map (·.value)

variable (params : List (NwpSqlParam T)) (dialect : DatabaseDialect)

def rebindFrom (pos : Nat) : GoString → GoString × List (GoAny T)
  | [] => ([], [])
  | r :: rest =>
    match if r = .char '@' then byName params (rest.takeWhile isNameChar) else none with
    | some val =>
      let after := rebindFrom (pos + (boundValues val).length) (rest.dropWhile isNameChar)
      (placeholders dialect pos val ++ after.1, boundValues val ++ after.2)
    | none =>
      let after := rebindFrom pos rest
      (r :: after.1, after.2)
termination_by text => text.length
decreasing_by
  · exact Nat.lt_succ_of_le (length_dropWhile_le _ _)
  · exact Nat.lt_succ_self _

/-- The text for the driver and its arguments in order. -/
def rebindNamedParams (namedSQL : GoString) : GoString × List (GoAny T) := rebindFrom params dialect 0 namedSQL

/-! ### What a driver reads -/

/-- The placeholders in a text: the number of each for PostgreSQL, and only that there is one for SQL
Server. -/
def placeholdersIn : GoString → List (Option Nat)
  | [] => []
  | r :: rest =>
    match dialect with
    | .postgreSql =>
      if r = .char '$' then
        some (Nat.ofDigitChars 10 ((toChars rest).takeWhile Char.isDigit) 0) :: placeholdersIn rest
      else placeholdersIn rest
    | .sqlServer => if r = .char '?' then none :: placeholdersIn rest else placeholdersIn rest

def placeholderAt (pos : Nat) : Option Nat :=
  match dialect with
  | .postgreSql => some pos
  | .sqlServer => none

/-- The statement with every parameter replaced by its placeholders, in order. -/
def spellBound (value : GoString → GoAny T) (q : Sql.Quoting) : Nat → Sql.Text → GoString
  | _, [] => []
  | pos, .parameter name :: s =>
    placeholders dialect pos (value name) ++ spellBound value q (pos + (boundValues (value name)).length) s
  | pos, p :: s => p.text q ++ spellBound value q pos s

/-- The values of the parameters of a statement, in the order of the text. -/
def valuesOf (value : GoString → GoAny T) (s : Sql.Text) : List (GoAny T) :=
  (parameters s).flatMap fun name => boundValues (value name)

/-! ### The walk over the text -/

variable {params dialect}

theorem rebindFrom_copy {pos : Nat} {text rest : GoString} (h : .char '@' ∉ text) :
    rebindFrom params dialect pos (text ++ rest) =
      (text ++ (rebindFrom params dialect pos rest).1, (rebindFrom params dialect pos rest).2) := by
  induction text with
  | nil => rfl
  | cons r text ih =>
    rw [mem_cons, not_or] at h
    rw [cons_append, rebindFrom, if_neg (Ne.symm h.1)]
    rw [ih h.2, cons_append]

theorem isNameChar_eq_false_of_separates {text : GoString} (h : text = [] ∨ separates text = true) :
    text.takeWhile isNameChar = [] := by
  rcases h with rfl | h
  · rfl
  · obtain ⟨c, rest, rfl, hc⟩ := exists_of_separates h
    rcases hc with rfl | rfl | rfl <;> rfl

variable {name rest : GoString} {s : Sql.Text}

section

variable (hname : name.all isNameChar = true) (hrest : rest = [] ∨ separates rest = true)
include hname hrest

theorem takeWhile_name : (name ++ rest).takeWhile isNameChar = name := by
  rw [takeWhile_append_of_pos (all_eq_true.mp hname), isNameChar_eq_false_of_separates hrest, append_nil]

theorem dropWhile_name : (name ++ rest).dropWhile isNameChar = rest := by
  have hsplit := takeWhile_append_dropWhile (p := isNameChar) (l := name ++ rest)
  rw [takeWhile_name hname hrest] at hsplit
  exact append_cancel_left hsplit

theorem rebindFrom_parameter {pos : Nat} {val : GoAny T} (hval : byName params name = some val) :
    rebindFrom params dialect pos (.char '@' :: (name ++ rest)) =
      (placeholders dialect pos val ++ (rebindFrom params dialect (pos + (boundValues val).length) rest).1,
        boundValues val ++ (rebindFrom params dialect (pos + (boundValues val).length) rest).2) := by
  rw [rebindFrom, if_pos rfl, takeWhile_name hname hrest, hval]
  rw [dropWhile_name hname hrest]

end

section

variable {value : GoString → GoAny T}

theorem valuesOf_parameter (name : GoString) (s : Sql.Text) :
    valuesOf value (.parameter name :: s) = boundValues (value name) ++ valuesOf value s := flatMap_cons

variable {q : Sql.Quoting} {s : Sql.Text}

variable (params dialect value) in
/-- The walk replaces the parameters that were named, and them only. -/
theorem rebindFrom_spell (hs : Sql.Composed s) (hq : q.Reserved) (hnames : ∀ name ∈ identifiers s, .char '@' ∉ name)
    (hvalue : ∀ name ∈ parameters s, byName params name = some (value name)) (pos : Nat) :
    rebindFrom params dialect pos (spell q s) = (spellBound dialect value q pos s, valuesOf value s) := by
  induction s generalizing pos with
  | nil =>
    rw [spell_nil, rebindFrom]
    rfl
  | cons p s ih =>
    rw [spell_cons]
    have hplain := hs.plain p mem_cons_self
    cases p with
    | fixed text =>
      rw [Sql.Piece.text, rebindFrom_copy (not_mem_of_isUnreserved hplain rfl), ih hs.tail hnames hvalue]
      rfl
    | identifier name =>
      have hname := mark_not_mem_identifier hq rfl (hnames name mem_cons_self)
      rw [rebindFrom_copy hname, ih hs.tail (fun n hn => hnames n (mem_cons_of_mem _ hn)) hvalue]
      rfl
    | parameter name =>
      have hhead := hs.head_spell (q := q) (fun _ => Sql.Piece.noConfusion)
      rw [Sql.Piece.text, cons_append, rebindFrom_parameter hplain hhead (hvalue name mem_cons_self),
        ih hs.tail hnames (fun n hn => hvalue n (mem_cons_of_mem _ hn)), spellBound,
        valuesOf_parameter]

/-! ### Reading the placeholders -/

theorem placeholdersIn_copy {text rest : GoString} (h : ∀ c, isMark c = true → .char c ∉ text) :
    placeholdersIn dialect (text ++ rest) = placeholdersIn dialect rest := by
  induction text with
  | nil => rfl
  | cons r text ih =>
    have hr : ∀ c, isMark c = true → r ≠ .char c := fun c hc heq => h c hc (heq ▸ mem_cons_self)
    have hrest := ih fun c hc hmem => h c hc (mem_cons_of_mem r hmem)
    cases dialect with
    | postgreSql => rw [cons_append, placeholdersIn, if_neg (hr '$' rfl), hrest]
    | sqlServer => rw [cons_append, placeholdersIn, if_neg (hr '?' rfl), hrest]

/-- Text that does not go on with a digit. -/
def EndsNumber (rest : GoString) : Prop := (toChars rest).takeWhile Char.isDigit = []

theorem isMark_eq_false_of_isDigit {c : Char} (h : c.isDigit = true) : isMark c = false := by
  by_contra hmark
  simp only [isMark, Bool.or_eq_true, decide_eq_true_eq, Bool.not_eq_false] at hmark
  rcases hmark with (rfl | rfl) | rfl <;> cases h

theorem isDigit_of_mem_intText {n : Nat} {c : Char} (h : c ∈ intText n) : c.isDigit = true := by
  exact Nat.isDigit_of_mem_toDigits (by decide) (by decide) h

theorem ofDigitChars_intText (n : Nat) : Nat.ofDigitChars 10 (intText n) 0 = n := by
  rw [intText, if_neg (by omega), Int.natAbs_natCast, Nat.ofDigitChars_ten_toDigits]

variable {rest : GoString}

theorem placeholdersIn_placeholder {pos : Nat} (h : EndsNumber rest) :
    placeholdersIn dialect (placeholder dialect pos ++ rest) =
      placeholderAt dialect pos :: placeholdersIn dialect rest := by
  cases dialect with
  | sqlServer => rfl
  | postgreSql =>
    have hcopy : placeholdersIn .postgreSql (ofChars (intText pos) ++ rest) =
        placeholdersIn .postgreSql rest := by
      refine placeholdersIn_copy ?_
      intro c hc hmem
      obtain ⟨d, hd, heq⟩ := mem_map.mp hmem
      cases heq
      rw [isMark_eq_false_of_isDigit (isDigit_of_mem_intText hd)] at hc
      cases hc
    have hnumber : (toChars (ofChars (intText pos) ++ rest)).takeWhile Char.isDigit = intText pos := by
      have happend : toChars (ofChars (intText pos) ++ rest) = intText pos ++ toChars rest := by
        rw [toChars, map_append]
        exact congrArg (· ++ _) (toChars_ofChars _)
      rw [happend, takeWhile_append_of_pos fun c hc => isDigit_of_mem_intText hc, h, append_nil]
    change placeholdersIn .postgreSql (.char '$' :: (ofChars (intText pos) ++ rest)) = _
    rw [placeholdersIn, hnumber, hcopy, ofDigitChars_intText]
    rfl

theorem endsNumber_of_separates (h : rest = [] ∨ separates rest = true) : EndsNumber rest := by
  rcases h with rfl | h
  · rfl
  · obtain ⟨c, tail, rfl, hc⟩ := exists_of_separates h
    rcases hc with rfl | rfl | rfl <;> rfl

theorem placeholdersIn_join (first count : Nat) (rest : GoString) : placeholdersIn dialect
        (GoString.join ", " ((range' first count).map (placeholder dialect)) ++ .char ')' :: rest) =
      (range' first count).map (placeholderAt dialect) ++ placeholdersIn dialect rest := by
  have hclose : placeholdersIn dialect (.char ')' :: rest) = placeholdersIn dialect rest := by
    cases dialect <;> rfl
  induction count generalizing first with
  | zero => exact hclose
  | succ count ih =>
    have hrest := ih (first + 1)
    rw [range'_succ, map_cons, map_cons, cons_append, ← hrest]
    cases count with
    | zero =>
      exact placeholdersIn_placeholder (endsNumber_of_separates (.inr rfl))
    | succ count =>
      rw [GoString.join, append_assoc, append_assoc,
        placeholdersIn_placeholder (endsNumber_of_separates (.inr rfl))]
      · cases dialect <;> rfl
      · exact nofun

theorem placeholdersIn_placeholders {pos : Nat} {val : GoAny T} (h : rest = [] ∨ separates rest = true) :
    placeholdersIn dialect (placeholders dialect pos val ++ rest) =
      (range' (pos + 1) (boundValues val).length).map (placeholderAt dialect) ++ placeholdersIn dialect rest := by
  rw [placeholders, boundValues]
  cases asSlice val with
  | none => exact placeholdersIn_placeholder (endsNumber_of_separates h)
  | some items =>
    have hopen : ∀ text : GoString, placeholdersIn dialect (.char '(' :: text) = placeholdersIn dialect text := by
      intro text
      cases dialect <;> rfl
    rw [append_assoc]
    exact (hopen _).trans (placeholdersIn_join (pos + 1) items.length rest)

variable (dialect value) in
theorem head_spellBound {p : Sql.Piece} (h : Sql.Composed (p :: s)) (hp : ∀ text, p ≠ .fixed text) (pos : Nat) :
    spellBound dialect value q pos s = [] ∨ separates (spellBound dialect value q pos s) = true := by
  obtain rfl | ⟨text, rest, rfl, hsep⟩ := h.next_separates hp
  · exact .inl rfl
  · exact .inr (hsep _)

theorem not_mem_of_isUnreserved_of_isMark {text : GoString} (h : text.all isUnreserved = true) {c : Char}
    (hc : isMark c = true) : .char c ∉ text := by
  refine not_mem_of_isUnreserved h ?_
  simp only [isMark, Bool.or_eq_true, decide_eq_true_eq] at hc
  rcases hc with (rfl | rfl) | rfl <;> rfl

/-- The placeholders are numbered one after the other, one for each value. -/
theorem placeholdersIn_spellBound (hs : Sql.Composed s) (hq : q.Reserved)
    (hnames : ∀ name ∈ identifiers s, ∀ c, isMark c = true → .char c ∉ name) (pos : Nat) :
    placeholdersIn dialect (spellBound dialect value q pos s) =
      (range' (pos + 1) (valuesOf value s).length).map (placeholderAt dialect) := by
  induction s generalizing pos with
  | nil => rfl
  | cons p s ih =>
    have hplain := hs.plain p mem_cons_self
    cases p with
    | fixed text =>
      rw [spellBound, Sql.Piece.text, placeholdersIn_copy fun c => not_mem_of_isUnreserved_of_isMark hplain,
        ih hs.tail hnames]
      · rfl
      · exact fun name => Sql.Piece.noConfusion
    | identifier name =>
      rw [spellBound, placeholdersIn_copy, ih hs.tail fun n hn => hnames n (mem_cons_of_mem _ hn)]
      · rfl
      · intro c hc
        exact mark_not_mem_identifier hq hc (hnames name mem_cons_self c hc)
      · exact fun name => Sql.Piece.noConfusion
    | parameter name =>
      have hhead := head_spellBound dialect value (q := q) hs
        (fun _ => Sql.Piece.noConfusion) (pos + (boundValues (value name)).length)
      rw [spellBound, placeholdersIn_placeholders hhead, ih hs.tail hnames, valuesOf_parameter,
        length_append, ← map_append, ← range'_append_1]
      rw [Nat.add_right_comm]

theorem at_not_mem_placeholder (pos : Nat) : .char '@' ∉ placeholder dialect pos := by
  cases dialect with
  | sqlServer =>
    change .char '@' ∉ ("?" : GoString)
    decide
  | postgreSql =>
    intro hmem
    obtain ⟨c, hc, heq⟩ := mem_map.mp hmem
    cases heq
    rcases mem_cons.mp hc with hc | hc
    · cases hc
    · cases isDigit_of_mem_intText hc

theorem mem_join {separator : GoString} {parts : List GoString} {r : GoRune}
    (h : r ∈ GoString.join separator parts) : r ∈ separator ∨ ∃ s ∈ parts, r ∈ s := by
  induction parts with
  | nil => cases h
  | cons s parts ih =>
    cases parts with
    | nil => exact .inr ⟨s, mem_cons_self, h⟩
    | cons s' parts =>
      rw [GoString.join, append_assoc, mem_append, mem_append] at h
      · rcases h with h | h | h
        · exact .inr ⟨s, mem_cons_self, h⟩
        · exact .inl h
        rcases ih h with h | ⟨u, hu, h⟩
        · exact .inl h
        · exact .inr ⟨u, mem_cons_of_mem _ hu, h⟩
      · exact nofun

theorem at_not_mem_placeholders (pos : Nat) (val : GoAny T) : .char '@' ∉ placeholders dialect pos val := by
  rw [placeholders]
  cases asSlice val with
  | none => exact at_not_mem_placeholder _
  | some items =>
    rw [mem_append, mem_append, not_or, not_or]
    refine ⟨⟨by decide, ?_⟩, by decide⟩
    intro hmem
    rcases mem_join hmem with hmem | ⟨s, hs, hmem⟩
    · revert hmem
      decide
    · obtain ⟨k, -, rfl⟩ := mem_map.mp hs
      exact at_not_mem_placeholder k hmem

theorem at_not_mem_spellBound (hs : Sql.Composed s) (hq : q.Reserved)
    (hnames : ∀ name ∈ identifiers s, .char '@' ∉ name) (pos : Nat) :
    .char '@' ∉ spellBound dialect value q pos s := by
  induction s generalizing pos with
  | nil => exact not_mem_nil
  | cons p s ih =>
    have hplain := hs.plain p mem_cons_self
    cases p with
    | fixed text =>
      exact not_mem_append (not_mem_of_isUnreserved hplain rfl) (ih hs.tail hnames pos)
    | identifier name =>
      exact not_mem_append (mark_not_mem_identifier hq rfl (hnames name mem_cons_self))
        (ih hs.tail (fun n hn => hnames n (mem_cons_of_mem _ hn)) pos)
    | parameter name =>
      exact not_mem_append (at_not_mem_placeholders pos _) (ih hs.tail hnames _)

end

/-! ### The parameters of a statement -/

/-- Every parameter is named once in the text, in the order of their numbers. -/
theorem Emits.parameters_eq {columns : List GoString} {t t' : TranslatorState T} {clauses : List Sql.Text}
    (h : Emits columns t clauses t') : ∃ count, t'.paramIndex = t.paramIndex + count ∧
      clauses.flatMap parameters = (range' t.paramIndex count).map paramName ∧
      t'.params.map (·.name) = t.params.map (·.name) ++ (range' t.paramIndex count).map paramName := by
  induction h with
  | nil t => exact ⟨0, rfl, rfl, (append_nil _).symm⟩
  | empty _ ih => exact ih
  | constant negate _ ih => exact ih
  | @simple _ t t' rest operator col hop value _ ih =>
    obtain ⟨count, hindex, htext, hnames⟩ := ih
    refine ⟨count + 1, ?_, ?_, ?_⟩
    · rw [hindex, withParam, Nat.add_assoc, Nat.add_comm 1 count]
    · rw [flatMap_cons, htext]
      rfl
    · rw [hnames, withParam, map_append, append_assoc]
      rfl
  | @between _ t t' rest col low high _ ih =>
    obtain ⟨count, hindex, htext, hnames⟩ := ih
    refine ⟨count + 2, ?_, ?_, ?_⟩
    · rw [hindex]
      simp only [withParam]
      omega
    · rw [flatMap_cons, htext]
      rfl
    · rw [hnames]
      simp only [withParam, map_append, range'_succ, map_cons, map_nil,
        append_assoc, cons_append, nil_append]
  | @group _ _ t t' t'' clauses rest separator hsep _ _ ihclauses ih =>
    obtain ⟨count, hindex, htext, hnames⟩ := ihclauses
    obtain ⟨count', hindex', htext', hnames'⟩ := ih
    refine ⟨count + count', by omega, ?_, ?_⟩
    · rw [flatMap_cons, parameters, filterMap_group Piece.parameter?_fixed, htext', hindex, ← range'_append_1,
        map_append]
      exact congrArg (· ++ _) htext
    · rw [hnames', hnames, hindex, append_assoc, ← map_append, range'_append_1]
  | @negation _ _ t t' t'' inner rest _ _ ihinner ih =>
    obtain ⟨count, hindex, htext, hnames⟩ := ihinner
    obtain ⟨count', hindex', htext', hnames'⟩ := ih
    refine ⟨count + count', by omega, ?_, ?_⟩
    · rw [flatMap_singleton] at htext
      rw [flatMap_cons, parameters, filterMap_enclosed Piece.parameter?_fixed, htext', hindex, ← range'_append_1,
        map_append]
      exact congrArg (· ++ _) htext
    · rw [hnames', hnames, hindex, append_assoc, ← map_append, range'_append_1]

theorem paramName_injective : Function.Injective paramName := by
  intro n m h
  have htext := (cons.inj (ofChars_injective h)).2
  rw [← ofDigitChars_intText n, htext, ofDigitChars_intText]

variable {P : SqlPlatform T} {schema : SqlMemoryNodeSchema}

theorem filterMap_parameter (names : List GoString) :
    (names.map Piece.identifier).filterMap Piece.parameter? = [] := by
  rw [filterMap_map]
  exact filterMap_none _

/-- The parameters of a statement in the order of its text: those of the filter, then those of the page. -/
theorem parameters_buildQueryText {options : SqlQueryOptions} {frame : QueryFrame T}
    (h : buildQueryText P schema dialect options frame = .ok (s, params)) : ∃ count,
      parameters s = (range count).map paramName ++ parameters (pagination dialect) ∧
      params.map (·.name) = (range count).map paramName ++ [("_limit" : GoString), "_offset"] := by
  obtain ⟨condition, t, _, _, hcondition, rfl, hs⟩ := filterMap_buildQueryText Piece.parameter?_fixed h
  obtain ⟨count, -, htext, hnames⟩ := (emits_translateText hcondition).parameters_eq
  rw [flatMap_singleton, parameters] at htext
  refine ⟨count, ?_, ?_⟩
  · rw [parameters, hs, filterMap_parameter, filterMap_parameter, htext, range_eq_range']
    rfl
  · rw [map_append, hnames, map_name_pageParams, range_eq_range']
    rfl

theorem nodup_names (count : Nat) : ((range count).map paramName ++ [("_limit" : GoString), "_offset"]).Nodup := by
  have hpage : [("_limit" : GoString), "_offset"].Nodup := by decide
  refine List.Nodup.append ((nodup_range).map paramName_injective) hpage ?_
  intro name hname hpage
  obtain ⟨n, -, rfl⟩ := mem_map.mp hname
  rcases mem_cons.mp hpage with hpage | hpage
  · cases (cons.inj hpage).1
  · cases (cons.inj (mem_singleton.mp hpage)).1

theorem byName_of_mem (hnodup : (params.map (·.name)).Nodup) {p : NwpSqlParam T} (hp : p ∈ params) :
    byName params p.name = some p.value := by
  have hfound : ∃ p', params.reverse.find? (fun q => decide (q.name = p.name)) = some p' := by
    rw [← Option.isSome_iff_exists, find?_isSome]
    exact ⟨p, mem_reverse.mpr hp, by simp⟩
  obtain ⟨p', hp'⟩ := hfound
  have hname : p'.name = p.name := by simpa using find?_some hp'
  have hmem := mem_reverse.mp (mem_of_find?_eq_some hp')
  rw [byName, hp', inj_on_of_nodup_map hnodup hmem hp hname]
  rfl

/-- What it means that a statement is bound exactly. -/
structure BoundExactly (dialect : DatabaseDialect) (s : Sql.Text) (params : List (NwpSqlParam T))
    (sqlText : GoString) (args : List (GoAny T)) : Prop where
  nodup : (params.map (·.name)).Nodup
  named : (parameters s).Perm (params.map (·.name))
  no_name : .char '@' ∉ sqlText
  numbered : placeholdersIn dialect sqlText = (range' 1 args.length).map (placeholderAt dialect)
  bound : ∃ value : GoString → GoAny T, (∀ p ∈ params, value p.name = p.value) ∧
    sqlText = spellBound dialect value dialect.quoting 0 s ∧
    args = (parameters s).flatMap fun name => boundValues (value name)

/-- Every statement the builder makes for a schema without marks in its names is bound exactly. -/
theorem rebindNamedParams_exact {options : SqlQueryOptions} {frame : QueryFrame T} {s : Sql.Text}
    (hschema : ∀ name ∈ schema.names, ∀ c, isMark c = true → .char c ∉ name)
    (hbuild : buildQueryText P schema dialect options frame = .ok (s, params)) : BoundExactly dialect s params
      (rebindNamedParams params dialect (spell dialect.quoting s)).1
      (rebindNamedParams params dialect (spell dialect.quoting s)).2 := by
  have hmarks : ∀ name ∈ identifiers s, ∀ c, isMark c = true → .char c ∉ name :=
    fun name hname => hschema name (identifiers_known hbuild name hname)
  have hat : ∀ name ∈ identifiers s, .char '@' ∉ name := fun name hname => hmarks name hname '@' rfl
  obtain ⟨count, htext, hnames⟩ := parameters_buildQueryText hbuild
  have hnodup : (params.map (·.name)).Nodup := by
    rw [hnames]
    exact nodup_names count
  have hperm : (parameters s).Perm (params.map (·.name)) := by
    rw [htext, hnames]
    refine List.Perm.append_left _ ?_
    cases dialect with
    | sqlServer => exact List.Perm.swap _ _ _
    | postgreSql => exact List.Perm.refl _
  let value : GoString → GoAny T := fun name => (byName params name).getD .nil
  have hvalue : ∀ p ∈ params, byName params p.name = some (value p.name) := by
    intro p hp
    simp only [value, byName_of_mem hnodup hp, Option.getD_some]
  have hnamed : ∀ name ∈ parameters s, byName params name = some (value name) := by
    intro name hname
    obtain ⟨p, hp, rfl⟩ := mem_map.mp (hperm.mem_iff.mp hname)
    exact hvalue p hp
  have hcomposed := composed_buildQueryText hbuild
  have hwalk := rebindFrom_spell params dialect value hcomposed (quoting_reserved dialect) hat hnamed 0
  rw [rebindNamedParams, hwalk]
  refine ⟨hnodup, hperm, at_not_mem_spellBound hcomposed (quoting_reserved dialect) hat 0,
    placeholdersIn_spellBound hcomposed (quoting_reserved dialect) hmarks 0, value, ?_, rfl, rfl⟩
  intro p hp
  simp only [value, byName_of_mem hnodup hp, Option.getD_some]

def itemsSchema : SqlMemoryNodeSchema where
  tableName := "items"
  primaryKey := "id"
  fields := [⟨"id", []⟩, ⟨"price", "unit_price"⟩]

def itemsQuery : QueryFrame Empty :=
  { emptyQuery with
    filter := .map [("price", .map [("$in", .slice [.int .int64 ⟨3, by decide⟩, .int .int64 ⟨5, by decide⟩])])]
    limit := some 10 }

theorem itemsQuery_bound_exactly : ∃ s params,
    buildQueryText plainSqlPlatform itemsSchema .postgreSql ⟨20, 1000⟩ itemsQuery = .ok (s, params) ∧
      params.length = 3 ∧ BoundExactly .postgreSql s params
        (rebindNamedParams params .postgreSql (spell DatabaseDialect.postgreSql.quoting s)).1
        (rebindNamedParams params .postgreSql (spell DatabaseDialect.postgreSql.quoting s)).2 := by
  have hplain : ∀ name ∈ itemsSchema.names, name.all isUnreserved = true := by decide +kernel
  have hschema : ∀ name ∈ itemsSchema.names, ∀ c, isMark c = true → .char c ∉ name :=
    fun name hname c => not_mem_of_isUnreserved_of_isMark (hplain name hname)
  have hbuild : ∃ s params, buildQueryText plainSqlPlatform itemsSchema .postgreSql ⟨20, 1000⟩ itemsQuery =
      .ok (s, params) ∧ params.length = 3 := ⟨_, _, rfl, rfl⟩
  obtain ⟨s, params, hbuild, hlength⟩ := hbuild
  exact ⟨s, params, hbuild, hlength, rebindNamedParams_exact hschema hbuild⟩

end Rebind

end NpsSdk.Nwp
