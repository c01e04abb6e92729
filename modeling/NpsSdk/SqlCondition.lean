import NpsSdk.SqlText

/-! Search conditions of SQL: how a text is read into tokens, tokens into an expression, and the truth of
an expression on a row. Truth has three values; a comparison whose outcome the database does not know is
neither true nor false. -/

namespace NpsSdk.Sql

open List Option

/-! ### Truth -/

/-- True, false or unknown. -/
abbrev Truth := Option Bool

namespace Truth

def neg : Truth → Truth := Option.map (!·)

def and : Truth → Truth → Truth
  | some false, _ => some false
  | _, some false => some false
  | some true, b => b
  | a, some true => a
  | none, none => none

def or : Truth → Truth → Truth
  | some true, _ => some true
  | _, some true => some true
  | some false, b => b
  | a, some false => a
  | none, none => none

def all (truths : List Truth) : Truth := truths.foldr and (some true)

def any (truths : List Truth) : Truth := truths.foldr or (some false)

theorem and_assoc (a b c : Truth) : and (and a b) c = and a (and b c) := by
  revert a b c
  decide

theorem or_assoc (a b c : Truth) : or (or a b) c = or a (or b c) := by
  revert a b c
  decide

theorem and_true (a : Truth) : and a (some true) = a := by
  revert a
  decide

theorem true_and (a : Truth) : and (some true) a = a := by
  revert a
  decide

theorem or_false (a : Truth) : or a (some false) = a := by
  revert a
  decide

theorem foldl_and (a : Truth) (truths : List Truth) : truths.foldl and a = and a (all truths) := by
  induction truths generalizing a with
  | nil => exact (and_true a).symm
  | cons b truths ih =>
    rw [foldl_cons, ih, and_assoc]
    rfl

theorem foldl_or (a : Truth) (truths : List Truth) : truths.foldl or a = or a (any truths) := by
  induction truths generalizing a with
  | nil => exact (or_false a).symm
  | cons b truths ih =>
    rw [foldl_cons, ih, or_assoc]
    rfl

end Truth

/-! ### Expressions -/

inductive Comparison where
  | eq | ne | lt | le | gt | ge
  deriving DecidableEq

def Comparison.holds : Comparison → Ordering → Bool
  | .eq, o => o = .eq
  | .ne, o => o ≠ .eq
  | .lt, o => o = .lt
  | .le, o => o ≠ .gt
  | .gt, o => o = .gt
  | .ge, o => o ≠ .lt

inductive Expr where
  | compare (column : GoString) (op : Comparison) (param : GoString)
  | inList (column : GoString) (param : GoString)
  | between (column : GoString) (low high : GoString)
  | like (column : GoString) (param : GoString)
  | constant (left : GoString) (op : Comparison) (right : GoString)
  | not (e : Expr)
  | and (e e' : Expr)
  | or (e e' : Expr)
  deriving DecidableEq

/-- What a database makes of the values in a condition: `R` are the values of its columns and `V` those of
parameters. -/
structure Database (R V : Type) where
  compare : R → V → Option Ordering
  like : R → V → Truth
  /-- The values a list stands for. -/
  items : V → Option (List V)

section

variable {R V : Type} (db : Database R V) (row : GoString → R) (param : GoString → Option V)

def compareTruth (op : Comparison) (r : R) (v : V) : Truth := (db.compare r v).map op.holds

def inTruth (r : R) (vs : List V) : Truth := Truth.any (vs.map (compareTruth db .eq r))

def betweenTruth (r : R) (low high : V) : Truth :=
  Truth.and (compareTruth db .ge r low) (compareTruth db .le r high)

def digitsValue (digits : GoString) : Nat := Nat.ofDigitChars 10 (GoString.toChars digits) 0

def Expr.eval : Expr → Truth
  | .compare c op p => (param p).bind (compareTruth db op (row c))
  | .inList c p => ((param p).bind db.items).bind (inTruth db (row c))
  | .between c low high => (param low).bind fun l => (param high).bind (betweenTruth db (row c) l)
  | .like c p => (param p).bind (db.like (row c))
  | .constant left op right => some (op.holds (Ord.compare (digitsValue left) (digitsValue right)))
  | .not e => Truth.neg e.eval
  | .and e e' => Truth.and e.eval e'.eval
  | .or e e' => Truth.or e.eval e'.eval

end

/-! ### Tokens -/

inductive Token where
  | identifier (name : GoString)
  | parameter (name : GoString)
  | number (digits : GoString)
  | comparison (op : Comparison)
  | lparen | rparen
  | not | and | or | in | between | like
  deriving DecidableEq

def keyword (letters : GoString) : Option Token :=
  if letters = "NOT" then some .not
  else if letters = "AND" then some .and
  else if letters = "OR" then some .or
  else if letters = "IN" then some .in
  else if letters = "BETWEEN" then some .between
  else if letters = "LIKE" then some .like
  else none

inductive LexState where
  | start
  | identifier (name : GoString)
  | closed (name : GoString)
  | parameter (name : GoString)
  | word (letters : GoString)
  | number (digits : GoString)
  | less
  | greater

def isLetter (c : Char) : Bool := 'A' ≤ c && c ≤ 'Z'

def beginToken (q : Quoting) : GoRune → Option (List Token × LexState)
  | .byte _ => none
  | .char c =>
    if c = ' ' then some ([], .start)
    else if c = '(' then some ([.lparen], .start)
    else if c = ')' then some ([.rparen], .start)
    else if c = '=' then some ([.comparison .eq], .start)
    else if c = '<' then some ([], .less)
    else if c = '>' then some ([], .greater)
    else if c = '@' then some ([], .parameter [])
    else if c.isDigit then some ([], .number [.char c])
    else if isLetter c then some ([], .word [.char c])
    else if c = q.opening then some ([], .identifier [])
    else none

/-- The token that is complete at the end of the text. -/
def flush : LexState → Option (List Token)
  | .start => some []
  | .identifier _ => none
  | .closed name => some [.identifier name]
  | .parameter name => some [.parameter name]
  | .word letters => (keyword letters).map ([·])
  | .number digits => some [.number digits]
  | .less => some [.comparison .lt]
  | .greater => some [.comparison .gt]

/-- A character that does not belong to the token before it. -/
def endToken (q : Quoting) (st : LexState) (r : GoRune) : Option (List Token × LexState) :=
  (flush st).bind fun before => (beginToken q r).map fun (tokens, st') => (before ++ tokens, st')

def isDigitRune : GoRune → Bool
  | .char c => c.isDigit
  | .byte _ => false

def isLetterRune : GoRune → Bool
  | .char c => isLetter c
  | .byte _ => false

def lexStep (q : Quoting) (st : LexState) (r : GoRune) : Option (List Token × LexState) :=
  match st with
  | .start => beginToken q r
  | .identifier name =>
    if r = .char q.closing then some ([], .closed name) else some ([], .identifier (name ++ [r]))
  | .closed name =>
    if r = .char q.closing then some ([], .identifier (name ++ [r])) else endToken q st r
  | .parameter name => if isNameChar r then some ([], .parameter (name ++ [r])) else endToken q st r
  | .word letters => if isLetterRune r then some ([], .word (letters ++ [r])) else endToken q st r
  | .number digits => if isDigitRune r then some ([], .number (digits ++ [r])) else endToken q st r
  | .less =>
    if r = .char '=' then some ([.comparison .le], .start)
    else if r = .char '>' then some ([.comparison .ne], .start)
    else endToken q st r
  | .greater => if r = .char '=' then some ([.comparison .ge], .start) else endToken q st r

def lexFrom (q : Quoting) : LexState → GoString → Option (List Token)
  | st, [] => flush st
  | st, r :: rs => (lexStep q st r).bind fun (tokens, st') => (lexFrom q st' rs).map (tokens ++ ·)

def lex (q : Quoting) (text : GoString) : Option (List Token) := lexFrom q .start text

/-! ### Parsing -/

/-- What has been read between two parentheses: the alternatives before the last `OR`, the conjuncts after
it, and the `NOT`s before the operand that comes next. -/
structure Level where
  alternatives : Option Expr := none
  conjuncts : Option Expr := none
  negations : Nat := 0

def negated : Nat → Expr → Expr
  | 0, e => e
  | n + 1, e => negated n (.not e)

/-- The operand that was expected. -/
def Level.push (l : Level) (e : Expr) : Level :=
  let e := negated l.negations e
  { l with
    conjuncts := some (match l.conjuncts with
      | some before => .and before e
      | none => e)
    negations := 0 }

def Level.close (l : Level) : Option Expr :=
  l.conjuncts.map fun e =>
    match l.alternatives with
    | some before => .or before e
    | none => e

mutual

/-- An operand comes next. -/
def parseOperand (l : Level) (outer : List Level) : List Token → Option Expr
  | .not :: ts => parseOperand { l with negations := l.negations + 1 } outer ts
  | .lparen :: ts => parseOperand {} (l :: outer) ts
  | .identifier c :: .comparison op :: .parameter p :: ts => parseOperator (l.push (.compare c op p)) outer ts
  | .identifier c :: .in :: .parameter p :: ts => parseOperator (l.push (.inList c p)) outer ts
  | .identifier c :: .not :: .in :: .parameter p :: ts => parseOperator (l.push (.not (.inList c p))) outer ts
  | .identifier c :: .between :: .parameter low :: .and :: .parameter high :: ts =>
    parseOperator (l.push (.between c low high)) outer ts
  | .identifier c :: .like :: .parameter p :: ts => parseOperator (l.push (.like c p)) outer ts
  | .number left :: .comparison op :: .number right :: ts =>
    parseOperator (l.push (.constant left op right)) outer ts
  | _ => none

/-- An operand has been read; `OR` binds less than `AND`. -/
def parseOperator (l : Level) (outer : List Level) : List Token → Option Expr
  | [] =>
    match outer with
    | [] => l.close
    | _ :: _ => none
  | .and :: ts => parseOperand l outer ts
  | .or :: ts => parseOperand { alternatives := l.close } outer ts
  | .rparen :: ts =>
    match outer, l.close with
    | up :: outer, some e => parseOperator (up.push e) outer ts
    | _, _ => none
  | _ => none

end

def parse (q : Quoting) (text : GoString) : Option Expr := (lex q text).bind (parseOperand {} [])

/-! ### Reading a text piece by piece -/

section Reading

variable {q : Quoting}

/-- The text spells these tokens wherever a separator or nothing comes after it. -/
def LexesTo (q : Quoting) (text : GoString) (tokens : List Token) : Prop :=
  ∀ rest, rest = [] ∨ separates rest = true →
    lexFrom q .start (text ++ rest) = (lexFrom q .start rest).map (tokens ++ ·)

/-- The text spells these tokens whatever comes after it. -/
def LexesAlways (q : Quoting) (text : GoString) (tokens : List Token) : Prop :=
  ∀ rest, lexFrom q .start (text ++ rest) = (lexFrom q .start rest).map (tokens ++ ·)

theorem map_append_append (before tokens : List Token) (result : Option (List Token)) :
    (result.map (tokens ++ ·)).map (before ++ ·) = result.map ((before ++ tokens) ++ ·) := by
  cases result with
  | none => rfl
  | some rest => exact congrArg some (append_assoc _ _ _).symm

variable {text : GoString} {tokens : List Token}

theorem LexesAlways.append {text text' : GoString} {tokens tokens' : List Token}
    (h : LexesAlways q text tokens) (h' : LexesTo q text' tokens') : LexesTo q (text ++ text') (tokens ++ tokens') := by
  intro rest hrest
  rw [append_assoc, h, h' rest hrest, map_append_append]

theorem LexesTo.append {text text' : GoString} {tokens tokens' : List Token} (h : LexesTo q text tokens)
    (hsep : separates text' = true) (h' : LexesTo q text' tokens') : LexesTo q (text ++ text') (tokens ++ tokens') := by
  intro rest hrest
  rw [append_assoc, h _ (Or.inr (separates_append hsep rest)), h' rest hrest, map_append_append]

theorem LexesAlways.to (h : LexesAlways q text tokens) : LexesTo q text tokens := fun rest _ => h rest

theorem lexesTo_nil (q : Quoting) : LexesTo q [] [] := by
  intro rest _
  rw [nil_append]
  cases lexFrom q .start rest <;> rfl

/-- A token ends where the next character does not belong to it. -/
theorem lexFrom_end {st : LexState} {rest : GoString} (h : ∀ r ∈ rest.head?, lexStep q st r = endToken q st r) :
    lexFrom q st rest = (flush st).bind fun before => (lexFrom q .start rest).map (before ++ ·) := by
  cases rest with
  | nil =>
    rw [lexFrom]
    cases flush st with
    | none => rfl
    | some before => exact congrArg some (append_nil before).symm
  | cons r rest =>
    rw [lexFrom, lexFrom, h r rfl, endToken, lexStep]
    cases flush st with
    | none => rfl
    | some before =>
      cases beginToken q r with
      | none => rfl
      | some step => exact (map_append_append before step.1 (lexFrom q step.2 rest)).symm

theorem lexFrom_silent {st st' : LexState} {r : GoRune} (h : lexStep q st r = some ([], st')) (rest : GoString) :
    lexFrom q st (r :: rest) = lexFrom q st' rest := by
  rw [lexFrom, h]
  exact map_id'

/-- The tokens that are complete after a text, and what has begun. -/
def lexRun (q : Quoting) : LexState → GoString → Option (List Token × LexState)
  | st, [] => some ([], st)
  | st, r :: rs => (lexStep q st r).bind fun step =>
    (lexRun q step.2 rs).map fun run => (step.1 ++ run.1, run.2)

theorem lexFrom_append {st : LexState} {text rest : GoString} {st' : LexState}
    (h : lexRun q st text = some (tokens, st')) :
    lexFrom q st (text ++ rest) = (lexFrom q st' rest).map (tokens ++ ·) := by
  induction text generalizing st tokens with
  | nil =>
    cases h
    exact map_id'.symm
  | cons r text ih =>
    obtain ⟨step, hstep, h⟩ := bind_eq_some_iff.mp h
    obtain ⟨run, hrun, h⟩ := map_eq_some_iff.mp h
    cases h
    rw [cons_append, lexFrom, hstep, bind_some]
    dsimp only
    rw [ih hrun, map_append_append]

theorem lexesAlways_of_run (h : lexRun q .start text = some (tokens, .start)) :
    LexesAlways q text tokens := fun _ => lexFrom_append h

/-- A state that takes up every character of a text takes up the text. -/
theorem lexFrom_absorb {state : GoString → LexState} {name text rest : GoString}
    (h : ∀ r ∈ text, ∀ name, lexStep q (state name) r = some ([], state (name ++ [r]))) :
    lexFrom q (state name) (text ++ rest) = lexFrom q (state (name ++ text)) rest := by
  induction text generalizing name with
  | nil => rw [nil_append, append_nil]
  | cons r text ih =>
    rw [cons_append, lexFrom_silent (h r mem_cons_self name), ih fun r' hr' => h r' (mem_cons_of_mem _ hr'),
      append_assoc, singleton_append]

theorem lexFrom_identifier {name text rest : GoString} (h : .char q.closing ∉ text) :
    lexFrom q (.identifier name) (text ++ rest) = lexFrom q (.identifier (name ++ text)) rest :=
  lexFrom_absorb fun r hr _ => by rw [lexStep, if_neg (show r ≠ .char q.closing from fun heq => h (heq ▸ hr))]

theorem lexFrom_parameter {name text rest : GoString} (h : text.all isNameChar = true) :
    lexFrom q (.parameter name) (text ++ rest) = lexFrom q (.parameter (name ++ text)) rest :=
  lexFrom_absorb fun r hr _ => by rw [lexStep, if_pos (all_eq_true.mp h r hr)]

theorem lexesTo_identifier (hq : q.Reserved) (hopen : beginToken q (.char q.opening) = some ([], .identifier []))
    {name : GoString} (h : .char q.closing ∉ name) :
    LexesTo q (Piece.text q (.identifier name)) [.identifier name] := by
  intro rest hrest
  have hstart : lexStep q .start (.char q.opening) = some ([], .identifier []) := hopen
  have hclose : lexStep q (.identifier name) (.char q.closing) = some ([], .closed name) := by
    rw [lexStep, if_pos rfl]
  have hend : ∀ r ∈ rest.head?, lexStep q (.closed name) r = endToken q (.closed name) r := by
    intro r hr
    have hne : r ≠ .char q.closing := by
      intro heq
      exact head_ne_of_isReserved hrest hq.closing (heq ▸ hr)
    rw [lexStep, if_neg hne]
  rw [Piece.text, cons_append, lexFrom_silent hstart, append_assoc, lexFrom_identifier h,
    nil_append, singleton_append, lexFrom_silent hclose, lexFrom_end hend]
  rfl

/-- A separator belongs to no name and to no number. -/
theorem head_of_separates {rest : GoString} (h : rest = [] ∨ separates rest = true) {r : GoRune}
    (hr : r ∈ rest.head?) : isNameChar r = false ∧ isDigitRune r = false := by
  rcases h with rfl | h
  · cases hr
  obtain ⟨c, tail, rfl, hc⟩ := exists_of_separates h
  cases hr
  rcases hc with rfl | rfl | rfl <;> exact ⟨rfl, rfl⟩

theorem lexesTo_parameter {name : GoString} (h : name.all isNameChar = true) :
    LexesTo q (Piece.text q (.parameter name)) [.parameter name] := by
  intro rest hrest
  have hopen : lexStep q .start (.char '@') = some ([], .parameter []) := rfl
  have hend : ∀ r ∈ rest.head?, lexStep q (.parameter name) r = endToken q (.parameter name) r := by
    intro r hr
    rw [lexStep, (head_of_separates hrest hr).1]
    rfl
  rw [Piece.text, cons_append, lexFrom_silent hopen, lexFrom_parameter h, nil_append, lexFrom_end hend]
  rfl

/-! ### Operands -/

/-- The text is read as an operand: as the expression, or as none. -/
def Reads (q : Quoting) (text : GoString) (outcome : Option Expr) : Prop :=
  ∃ tokens, LexesTo q text tokens ∧ ∀ l outer rest,
    parseOperand l outer (tokens ++ rest) = outcome.bind fun e => parseOperator (l.push e) outer rest

theorem parse_of_reads {outcome : Option Expr} (h : Reads q text outcome) : parse q text = outcome := by
  obtain ⟨tokens, hlex, hparse⟩ := h
  have htokens : lex q text = some tokens := by
    have hall := hlex [] (Or.inl rfl)
    rw [append_nil] at hall
    rw [lex, hall]
    exact congrArg some (append_nil tokens)
  have hoperand := hparse {} [] []
  rw [append_nil] at hoperand
  rw [parse, htokens, bind_some, hoperand]
  cases outcome <;> rfl

theorem parseOperator_rparen {l : Level} {e : Expr} (h : l.close = some e) (up : Level) (outer : List Level)
    (ts : List Token) : parseOperator l (up :: outer) (.rparen :: ts) = parseOperator (up.push e) outer ts := by
  rw [parseOperator.eq_def]
  simp only [h]

theorem reads_negation {outcome : Option Expr} (h : Reads q text outcome) :
    Reads q ("NOT (" ++ (text ++ ")")) (outcome.map .not) := by
  obtain ⟨tokens, hlex, hparse⟩ := h
  have hopen : LexesAlways q "NOT (" [.not, .lparen] := lexesAlways_of_run rfl
  have hclose : LexesAlways q ")" [.rparen] := lexesAlways_of_run rfl
  refine ⟨[.not, .lparen] ++ (tokens ++ [.rparen]), hopen.append (hlex.append rfl hclose.to), ?_⟩
  intro l outer rest
  rw [append_assoc, append_assoc]
  change parseOperand {} ({ l with negations := l.negations + 1 } :: outer) (tokens ++ (.rparen :: rest)) = _
  rw [hparse]
  cases outcome <;> rfl

theorem lexesTo_infix {column operator param : GoString} (hq : q.Reserved)
    (hopen : beginToken q (.char q.opening) = some ([], .identifier [])) (hcolumn : .char q.closing ∉ column)
    (hparam : param.all isNameChar = true) (hsep : separates operator = true)
    (hoperator : lexRun q .start operator = some (tokens, .start)) :
    LexesTo q (spell q [.identifier column, .fixed operator, .parameter param])
      (.identifier column :: (tokens ++ [.parameter param])) := by
  have hsecond := (lexesAlways_of_run hoperator).append (lexesTo_parameter (q := q) hparam)
  have hall := (lexesTo_identifier hq hopen hcolumn).append (separates_append hsep _) hsecond
  rw [spell_cons, spell_cons, spell_cons, spell_nil, append_nil]
  exact hall

theorem lexesTo_constant {digit digit' : Char} (hdigits : lexRun q .start [.char digit, .char '=', .char digit'] =
    some ([.number [.char digit], .comparison .eq], .number [.char digit'])) :
    LexesTo q [.char digit, .char '=', .char digit']
      [.number [.char digit], .comparison .eq, .number [.char digit']] := by
  intro rest hrest
  have hend : ∀ r ∈ rest.head?, lexStep q (.number [.char digit']) r = endToken q (.number [.char digit']) r := by
    intro r hr
    rw [lexStep, (head_of_separates hrest hr).2]
    rfl
  rw [lexFrom_append hdigits, lexFrom_end hend]
  exact map_append_append _ [.number [.char digit']] _

/-! ### Clauses in parentheses -/

theorem spell_join (separator : GoString) (clauses : List Text) :
    spell q (Sql.join separator clauses) = GoString.join separator (clauses.map (spell q)) := by
  induction clauses with
  | nil => rfl
  | cons clause clauses ih =>
    cases clauses with
    | nil => rfl
    | cons clause' clauses =>
      have hjoin : Sql.join separator (clause :: clause' :: clauses) =
          clause ++ .fixed separator :: Sql.join separator (clause' :: clauses) := rfl
      rw [hjoin, spell_append, spell_cons, ih, ← append_assoc]
      rfl

/-- How clauses are joined, and the levels that hold those joined so far. -/
structure Joint (q : Quoting) where
  text : GoString
  token : Token
  next : Level → Level
  join : Expr → Expr → Expr
  Holds : Level → Expr → Prop
  lexes : LexesAlways q text [token]
  separates : separates text = true
  no_operand : ∀ l outer ts, parseOperand l outer (token :: ts) = none
  operator : ∀ l outer ts, parseOperator l outer (token :: ts) = parseOperand (next l) outer ts
  holds_first : ∀ e, Holds (({} : Level).push e) e
  holds_next : ∀ l e e', Holds l e → Holds ((next l).push e') (join e e')
  close : ∀ l e, Holds l e → l.close = some e

def andJoint (q : Quoting) : Joint q where
  text := " AND "
  token := .and
  next l := l
  join := .and
  Holds l e := l = { conjuncts := some e }
  lexes := lexesAlways_of_run rfl
  separates := rfl
  no_operand _ _ _ := rfl
  operator _ _ _ := rfl
  holds_first _ := rfl
  holds_next _ _ _ h := h ▸ rfl
  close _ _ h := h ▸ rfl

def orJoint (q : Quoting) : Joint q where
  text := " OR "
  token := .or
  next l := { alternatives := l.close }
  join := .or
  Holds l e := l.close = some e
  lexes := lexesAlways_of_run rfl
  separates := rfl
  no_operand _ _ _ := rfl
  operator _ _ _ := rfl
  holds_first _ := rfl
  holds_next _ _ _ h := by
    rw [h]
    rfl
  close _ _ h := h

/-- A clause is read as an operand, or there is none. -/
def Part (q : Quoting) (text : GoString) (outcome : Option Expr) : Prop :=
  (text = [] ∧ outcome = none) ∨ Reads q text outcome

namespace Joint

variable (j : Joint q)

/-- The level after the clauses that come next. -/
def fill : Level → List Expr → Level
  | l, [] => l
  | l, e :: es => fill ((j.next l).push e) es

theorem holds_fill {l : Level} {e : Expr} (h : j.Holds l e) (es : List Expr) :
    j.Holds (j.fill l es) (es.foldl j.join e) := by
  induction es generalizing l e with
  | nil => exact h
  | cons e' es ih => exact ih (j.holds_next l e e' h)

variable {outcomes : List (Option Expr)}

/-- The first clause, and the others after it; a clause that is missing leaves the list unreadable. -/
theorem reads_join {text : GoString} {outcome : Option Expr} {texts : List GoString} (hfirst : Part q text outcome)
    (hrest : List.Forall₂ (Part q) texts outcomes) :
    ∃ tokens, LexesTo q (GoString.join j.text (text :: texts)) tokens ∧ ∀ l outer ts,
      parseOperand l outer (tokens ++ .rparen :: ts) = outcome.bind fun e => (outcomes.mapM id).bind fun es =>
          parseOperator (j.fill (l.push e) es) outer (.rparen :: ts) := by
  induction hrest generalizing text outcome with
  | nil =>
    rcases hfirst with ⟨rfl, rfl⟩ | ⟨tokens, hlex, hparse⟩
    · exact ⟨[], lexesTo_nil q, fun _ _ _ => rfl⟩
    · exact ⟨tokens, hlex, fun l outer ts => hparse l outer (.rparen :: ts)⟩
  | @cons text' outcome' texts outcomes hsecond _ ih =>
    obtain ⟨tokens', hlex', hparse'⟩ := ih hsecond
    have hjoin : GoString.join j.text (text :: text' :: texts) =
        text ++ (j.text ++ GoString.join j.text (text' :: texts)) := by
      rw [GoString.join, append_assoc]
      exact nofun
    have hseparates := separates_append j.separates (GoString.join j.text (text' :: texts))
    have htail := j.lexes.append hlex'
    rw [hjoin]
    rcases hfirst with ⟨rfl, rfl⟩ | ⟨tokens, hlex, hparse⟩
    · exact ⟨j.token :: tokens', htail, fun l outer ts => j.no_operand l outer _⟩
    refine ⟨tokens ++ ([j.token] ++ tokens'), hlex.append hseparates htail, ?_⟩
    intro l outer ts
    rw [append_assoc, hparse]
    cases outcome with
    | none => rfl
    | some e =>
      rw [bind_some, append_assoc, singleton_append, j.operator, hparse']
      cases outcome' with
      | none => rfl
      | some e' =>
        rw [mapM_cons]
        cases outcomes.mapM id <;> rfl

/-- The expression of the clauses; there is none for no clause. -/
def combine : List Expr → Option Expr
  | [] => none
  | e :: es => some (es.foldl j.join e)

/-- Parentheses are read if every clause in them is, and there is one. -/
theorem reads_group {texts : List GoString} (h : List.Forall₂ (Part q) texts outcomes) :
    Reads q ("(" ++ (GoString.join j.text texts ++ ")")) ((outcomes.mapM id).bind j.combine) := by
  have hopen : LexesAlways q "(" [.lparen] := lexesAlways_of_run rfl
  have hclose : LexesAlways q ")" [.rparen] := lexesAlways_of_run rfl
  cases h with
  | nil =>
    rw [GoString.join, nil_append]
    exact ⟨[.lparen] ++ [.rparen], hopen.append hclose.to, fun _ _ _ => rfl⟩
  | @cons text outcome texts outcomes hfirst hrest =>
    obtain ⟨tokens, hlex, hparse⟩ := j.reads_join hfirst hrest
    refine ⟨[.lparen] ++ (tokens ++ [.rparen]), hopen.append (hlex.append rfl hclose.to), ?_⟩
    intro l outer rest
    rw [append_assoc, append_assoc]
    change parseOperand {} (l :: outer) (tokens ++ .rparen :: rest) = _
    rw [hparse, mapM_cons]
    cases outcome with
    | none => rfl
    | some e =>
      cases outcomes.mapM id with
      | none => rfl
      | some es =>
        have hholds := j.close _ _ (j.holds_fill (j.holds_first e) es)
        exact parseOperator_rparen hholds l outer rest

theorem isSome_bind_combine (outcomes : List (Option Expr)) :
    ((outcomes.mapM id).bind j.combine).isSome = (!outcomes.isEmpty && (outcomes.mapM id).isSome) := by
  cases outcomes with
  | nil => rfl
  | cons outcome outcomes =>
    rw [mapM_cons]
    cases outcome with
    | none => rfl
    | some e => cases outcomes.mapM id <;> rfl

/-- The clauses mean what their truths combine to. -/
def Means (eval : Expr → Truth) (fold : List Truth → Truth) : Prop :=
  ∀ es e, j.combine es = some e → eval e = fold (es.map eval)

end Joint

section

variable {R V : Type} (db : Database R V) (row : GoString → R) (param : GoString → Option V)

theorem means_and : (andJoint q).Means (Expr.eval db row param) Truth.all := by
  intro es e h
  cases es with
  | nil => cases h
  | cons e es =>
    cases h
    refine Eq.trans ?_ (Truth.foldl_and _ _)
    rw [foldl_map]
    exact (foldl_hom (Expr.eval db row param) fun _ _ => rfl).symm

theorem means_or : (orJoint q).Means (Expr.eval db row param) Truth.any := by
  intro es e h
  cases es with
  | nil => cases h
  | cons e es =>
    cases h
    refine Eq.trans ?_ (Truth.foldl_or _ _)
    rw [foldl_map]
    exact (foldl_hom (Expr.eval db row param) fun _ _ => rfl).symm

end

end Reading

end NpsSdk.Sql
