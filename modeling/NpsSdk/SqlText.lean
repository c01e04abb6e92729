import NpsSdk.GoString

/-! The text of an SQL statement, kept as the pieces it is put together from: fixed text, quoted
identifiers and named parameters. The text itself is what the pieces spell, and it is read back from
there: identifiers by their quotes, parameters by the longest name after an `@`. -/

namespace NpsSdk.Sql

open List

/-- The characters an identifier stands between. -/
structure Quoting where
  opening : Char
  closing : Char

inductive Piece where
  | fixed (text : GoString)
  | identifier (name : GoString)
  | parameter (name : GoString)
  deriving DecidableEq

def Piece.text (q : Quoting) : Piece → GoString
  | .fixed text => text
  | .identifier name => .char q.opening :: (name ++ [.char q.closing])
  | .parameter name => .char '@' :: name

def Piece.identifier? : Piece → Option GoString
  | .identifier name => some name
  | _ => none

def Piece.parameter? : Piece → Option GoString
  | .parameter name => some name
  | _ => none

theorem Piece.identifier?_fixed (text : GoString) : (fixed text).identifier? = none := rfl

theorem Piece.parameter?_fixed (text : GoString) : (fixed text).parameter? = none := rfl

abbrev Text := List Piece

def spell (q : Quoting) (s : Text) : GoString := s.flatMap (Piece.text q)

def identifiers (s : Text) : List GoString := s.filterMap Piece.identifier?

def parameters (s : Text) : List GoString := s.filterMap Piece.parameter?

def join (separator : GoString) : List Text → Text
  | [] => []
  | [s] => s
  | s :: rest => s ++ .fixed separator :: join separator rest

def group (separator : GoString) (clauses : List Text) : Text :=
  .fixed "(" :: (join separator clauses ++ [.fixed ")"])

section

variable (q : Quoting) (s s' : Text)

@[simp]
theorem spell_nil : spell q [] = [] := rfl

@[simp]
theorem spell_cons (p : Piece) : spell q (p :: s) = p.text q ++ spell q s := flatMap_cons

@[simp]
theorem spell_append : spell q (s ++ s') = spell q s ++ spell q s' := flatMap_append

end

section

variable {pick : Piece → Option GoString} (hfixed : ∀ text, pick (.fixed text) = none)
include hfixed

theorem filterMap_fixed (text : GoString) (s : Text) : (.fixed text :: s).filterMap pick = s.filterMap pick :=
  filterMap_cons_none (hfixed text)

theorem filterMap_eq_nil_of_spell {q : Quoting} {s : Text} (h : spell q s = []) : s.filterMap pick = [] := by
  induction s with
  | nil => rfl
  | cons p s ih =>
    rw [spell_cons, append_eq_nil_iff] at h
    cases p with
    | fixed text => rw [filterMap_fixed hfixed, ih h.2]
    | identifier | parameter => cases h.1

theorem filterMap_enclosed (before after : GoString) (s : Text) :
    (.fixed before :: (s ++ [.fixed after])).filterMap pick = s.filterMap pick := by
  rw [filterMap_fixed hfixed, filterMap_append, filterMap_fixed hfixed, filterMap_nil, append_nil]

theorem filterMap_join (separator : GoString) (clauses : List Text) :
    (join separator clauses).filterMap pick = clauses.flatMap (·.filterMap pick) := by
  induction clauses with
  | nil => rfl
  | cons s rest ih =>
    cases rest with
    | nil => rw [join, flatMap_singleton]
    | cons s' rest =>
      rw [join, filterMap_append, filterMap_fixed hfixed, ih]
      · rfl
      · exact cons_ne_nil s' rest

theorem filterMap_group (separator : GoString) (clauses : List Text) :
    (group separator clauses).filterMap pick = clauses.flatMap (·.filterMap pick) := by
  rw [group, filterMap_enclosed hfixed, filterMap_join hfixed]

end

/-! ### Texts that can be read back -/

/-- Characters that mean something in a statement wherever they stand. -/
def isReserved (c : Char) : Bool := c = '"' || c = '[' || c = ']' || c = '@' || c = '$' || c = '?'

def isNameChar : GoRune → Bool
  | .char c => c = '_' || ('a' ≤ c && c ≤ 'z') || ('A' ≤ c && c ≤ 'Z') || ('0' ≤ c && c ≤ '9')
  | .byte _ => false

def isUnreserved : GoRune → Bool
  | .char c => !isReserved c
  | .byte _ => true

def Piece.isPlain : Piece → Bool
  | .fixed text => text.all isUnreserved
  | .identifier _ => true
  | .parameter name => name.all isNameChar

/-- Text that ends whatever name stands before it. -/
def separates : GoString → Bool
  | .char c :: _ => c = ' ' || c = ',' || c = ')'
  | _ => false

theorem exists_of_separates {text : GoString} (h : separates text = true) :
    ∃ c rest, text = .char c :: rest ∧ (c = ' ' ∨ c = ',' ∨ c = ')') := by
  match text, h with
  | .char c :: rest, h => exact ⟨c, rest, rfl, by simpa [separates, or_assoc] using h⟩

theorem separates_append {text : GoString} (h : separates text = true) (rest : GoString) :
    separates (text ++ rest) = true := by
  obtain ⟨c, tail, rfl, -⟩ := exists_of_separates h
  exact h

/-- Fixed text is free of reserved characters, and comes after every identifier and parameter. -/
structure Composed (s : Text) : Prop where
  plain : ∀ p ∈ s, p.isPlain = true
  spaced : s.IsChain fun a b => (∃ text, a = .fixed text) ∨ ∃ text, b = .fixed text ∧ separates text = true

namespace Composed

theorem nil : Composed [] := ⟨nofun, .nil⟩

variable {p : Piece} {s : Text} {text : GoString}

theorem tail (h : Composed (p :: s)) : Composed s :=
  ⟨fun p' hp' => h.plain p' (mem_cons_of_mem p hp'), h.spaced.tail⟩

theorem fixed_cons (htext : (Piece.fixed text).isPlain = true) (h : Composed s) : Composed (.fixed text :: s) := by
  refine ⟨forall_mem_cons.mpr ⟨htext, h.plain⟩, isChain_cons.mpr ⟨?_, h.spaced⟩⟩
  intro p _
  exact .inl ⟨text, rfl⟩

theorem cons_fixed (hp : p.isPlain = true) (hsep : separates text = true) (h : Composed (.fixed text :: s)) :
    Composed (p :: .fixed text :: s) := by
  refine ⟨forall_mem_cons.mpr ⟨hp, h.plain⟩, isChain_cons_cons.mpr ⟨?_, h.spaced⟩⟩
  exact .inr ⟨text, rfl, hsep⟩

theorem singleton (hp : p.isPlain = true) : Composed [p] :=
  ⟨forall_mem_singleton.mpr hp, .singleton p⟩

theorem append_fixed {s s' : Text} (h : Composed s) (hsep : separates text = true)
    (h' : Composed (.fixed text :: s')) : Composed (s ++ .fixed text :: s') := by
  refine ⟨?_, isChain_append.mpr ⟨h.spaced, h'.spaced, ?_⟩⟩
  · intro p hp
    rcases mem_append.mp hp with hp | hp
    · exact h.plain p hp
    · exact h'.plain p hp
  · intro p _ p' hp'
    cases hp'
    exact .inr ⟨text, rfl, hsep⟩

theorem join {separator : GoString} {clauses : List Text} (hplain : (Piece.fixed separator).isPlain = true)
    (hsep : separates separator = true) (h : ∀ s ∈ clauses, Composed s) : Composed (join separator clauses) := by
  induction clauses with
  | nil => exact nil
  | cons s rest ih =>
    cases rest with
    | nil => exact h s mem_cons_self
    | cons s' rest =>
      have hrest := ih fun s hs => h s (mem_cons_of_mem _ hs)
      exact (h s mem_cons_self).append_fixed hsep (hrest.fixed_cons hplain)

theorem group {separator : GoString} {clauses : List Text} (hplain : (Piece.fixed separator).isPlain = true)
    (hsep : separates separator = true) (h : ∀ s ∈ clauses, Composed s) : Composed (group separator clauses) := by
  refine fixed_cons (by decide +kernel) ((join hplain hsep h).append_fixed (by decide +kernel) ?_)
  exact singleton (by decide +kernel)

section

variable (h : Composed (p :: s)) (hp : ∀ text, p ≠ .fixed text)
include h hp

/-- What follows an identifier or a parameter is fixed and begins with a separator. -/
theorem next_separates :
    s = [] ∨ ∃ text rest, s = .fixed text :: rest ∧ ∀ more, separates (text ++ more) = true := by
  cases s with
  | nil => exact .inl rfl
  | cons p' s =>
    obtain hfixed | ⟨text, rfl, hsep⟩ := (isChain_cons_cons.mp h.spaced).1
    · obtain ⟨text, rfl⟩ := hfixed
      exact absurd rfl (hp text)
    · exact .inr ⟨text, s, rfl, separates_append hsep⟩

theorem head_spell {q : Quoting} :
    spell q s = [] ∨ separates (spell q s) = true := by
  obtain rfl | ⟨text, rest, rfl, hsep⟩ := h.next_separates hp
  · exact .inl rfl
  · exact .inr (hsep _)

end

end Composed

/-! ### Identifiers -/

inductive ScanState where
  | outside
  | inside (name : GoString)
  | closed (name : GoString)

/-- The identifiers a reader sees. Within quotes the closing one is written twice. -/
def scanIdentifiers (q : Quoting) : ScanState → GoString → List GoString
  | .outside, [] => []
  | .inside _, [] => []
  | .closed name, [] => [name]
  | .outside, r :: rs =>
    if r = .char q.opening then scanIdentifiers q (.inside []) rs else scanIdentifiers q .outside rs
  | .inside name, r :: rs =>
    if r = .char q.closing then scanIdentifiers q (.closed name) rs
    else scanIdentifiers q (.inside (name ++ [r])) rs
  | .closed name, r :: rs =>
    if r = .char q.closing then scanIdentifiers q (.inside (name ++ [r])) rs
    else name ::
      if r = .char q.opening then scanIdentifiers q (.inside []) rs else scanIdentifiers q .outside rs

def quotedIdentifiers (q : Quoting) (text : GoString) : List GoString := scanIdentifiers q .outside text

/-- The marks of parameters and placeholders. -/
def isMark (c : Char) : Bool := c = '@' || c = '$' || c = '?'

/-- Both quotes are reserved and mark nothing else. -/
structure Quoting.Reserved (q : Quoting) : Prop where
  opening : isReserved q.opening = true
  closing : isReserved q.closing = true
  opening_mark : isMark q.opening = false
  closing_mark : isMark q.closing = false

section

variable {q : Quoting}

theorem scan_outside {text rest : GoString} (h : .char q.opening ∉ text) :
    scanIdentifiers q .outside (text ++ rest) = scanIdentifiers q .outside rest := by
  induction text with
  | nil => rfl
  | cons r text ih =>
    rw [mem_cons, not_or] at h
    rw [cons_append, scanIdentifiers, if_neg (Ne.symm h.1), ih h.2]

theorem scan_inside {name text rest : GoString} (h : .char q.closing ∉ text) :
    scanIdentifiers q (.inside name) (text ++ rest) = scanIdentifiers q (.inside (name ++ text)) rest := by
  induction text generalizing name with
  | nil => rw [nil_append, append_nil]
  | cons r text ih =>
    rw [mem_cons, not_or] at h
    rw [cons_append, scanIdentifiers, if_neg (Ne.symm h.1), ih h.2, append_assoc]
    rfl

/-- A name that is not followed by a closing quote has been read to its end. -/
theorem scan_closed {name text : GoString} (h : text.head? ≠ some (.char q.closing)) :
    scanIdentifiers q (.closed name) text = name :: scanIdentifiers q .outside text := by
  cases text with
  | nil => rfl
  | cons r text =>
    have hr : r ≠ .char q.closing := fun heq => h (congrArg some heq)
    rw [scanIdentifiers.eq_6, if_neg hr, scanIdentifiers.eq_4]

variable {c : Char} {name : GoString}

theorem head_ne_of_isReserved {text : GoString} (h : text = [] ∨ separates text = true) (hc : isReserved c = true) :
    text.head? ≠ some (.char c) := by
  intro hhead
  rcases h with rfl | h
  · cases hhead
  obtain ⟨c', rest, rfl, hc'⟩ := exists_of_separates h
  cases hhead
  rcases hc' with rfl | rfl | rfl <;> cases hc

theorem not_mem_of_isUnreserved {text : GoString} (h : text.all isUnreserved = true) (hc : isReserved c = true) :
    .char c ∉ text := by
  intro hmem
  have hunreserved := all_eq_true.mp h _ hmem
  rw [isUnreserved, hc] at hunreserved
  cases hunreserved

theorem not_mem_of_isNameChar (h : name.all isNameChar = true) (hc : isReserved c = true) : .char c ∉ name := by
  intro hmem
  have hname := all_eq_true.mp h _ hmem
  simp only [isReserved, Bool.or_eq_true, decide_eq_true_eq] at hc
  rcases hc with ((((rfl | rfl) | rfl) | rfl) | rfl) | rfl <;> cases hname

theorem not_mem_parameter (hq : q.Reserved) (h : name.all isNameChar = true) :
    .char q.opening ∉ GoRune.char '@' :: name := by
  rw [mem_cons, not_or]
  refine ⟨?_, not_mem_of_isNameChar h hq.opening⟩
  intro heq
  have hmark := hq.opening_mark
  rw [GoRune.char.inj heq] at hmark
  cases hmark

theorem mark_not_mem_identifier (hq : q.Reserved) (hc : isMark c = true) (h : .char c ∉ name) :
    .char c ∉ Piece.text q (.identifier name) := by
  rw [Piece.text, mem_cons, mem_append, mem_singleton]
  rintro (heq | hname | heq)
  · have hmark := hq.opening_mark
    rw [← GoRune.char.inj heq, hc] at hmark
    cases hmark
  · exact h hname
  · have hmark := hq.closing_mark
    rw [← GoRune.char.inj heq, hc] at hmark
    cases hmark

theorem quotedIdentifiers_spell (hq : q.Reserved) {s : Text} (h : Composed s)
    (hnames : ∀ name ∈ identifiers s, .char q.closing ∉ name) : quotedIdentifiers q (spell q s) = identifiers s := by
  induction s with
  | nil => rfl
  | cons p s ih =>
    rw [spell_cons]
    have hplain := h.plain p mem_cons_self
    cases p with
    | fixed text =>
      exact (scan_outside (not_mem_of_isUnreserved hplain hq.opening)).trans (ih h.tail hnames)
    | identifier name =>
      have hrest := ih h.tail fun n hn => hnames n (mem_cons_of_mem _ hn)
      have hname := hnames name mem_cons_self
      have hhead := head_ne_of_isReserved (h.head_spell (q := q) (fun _ => Piece.noConfusion)) hq.closing
      rw [quotedIdentifiers, Piece.text, cons_append, scanIdentifiers, if_pos rfl,
        append_assoc, scan_inside hname, singleton_append, scanIdentifiers, if_pos rfl, scan_closed hhead]
      exact congrArg (name :: ·) hrest
    | parameter name =>
      exact (scan_outside (not_mem_parameter hq hplain)).trans (ih h.tail hnames)

/-- A name as it is written between quotes for a reader to get it back. -/
def escape (q : Quoting) (name : GoString) : GoString :=
  name.flatMap fun r => if r = .char q.closing then [r, r] else [r]

theorem escape_cons_closing (name : GoString) :
    escape q (.char q.closing :: name) = .char q.closing :: .char q.closing :: escape q name := by
  rw [escape, flatMap_cons, if_pos rfl]
  rfl

theorem escape_cons {r : GoRune} (hr : r ≠ .char q.closing) (name : GoString) :
    escape q (r :: name) = r :: escape q name := by
  rw [escape, flatMap_cons, if_neg hr]
  rfl

/-- Whatever name a reader sees first was written with its closing quotes doubled. -/
theorem escape_of_scan_inside {acc text name : GoString}
    (h : (scanIdentifiers q (.inside acc) text).head? = some name) :
    ∃ read rest, name = acc ++ read ∧ text = escape q read ++ .char q.closing :: rest := by
  induction hlength : text.length using Nat.strong_induction_on generalizing acc text with
  | _ n ih =>
    subst hlength
    cases text with
    | nil => cases h
    | cons r text =>
      rw [scanIdentifiers] at h
      split at h
      case isFalse hr =>
        obtain ⟨read, rest, hname, htext⟩ := ih text.length (Nat.lt_succ_self _) h rfl
        refine ⟨r :: read, rest, ?_, ?_⟩
        · rw [hname, append_assoc, singleton_append]
        · rw [escape_cons hr, htext, cons_append]
      case isTrue hr =>
        subst hr
        cases text with
        | nil =>
          cases h
          exact ⟨[], [], (append_nil _).symm, rfl⟩
        | cons r text =>
          rw [scanIdentifiers] at h
          split at h
          case isFalse =>
            cases h
            exact ⟨[], r :: text, (append_nil _).symm, rfl⟩
          case isTrue hr =>
            subst hr
            obtain ⟨read, rest, hname, htext⟩ := ih text.length (Nat.lt_succ_of_lt (Nat.lt_succ_self _)) h rfl
            refine ⟨.char q.closing :: read, rest, ?_, ?_⟩
            · rw [hname, append_assoc, singleton_append]
            · rw [escape_cons_closing, htext]
              rfl

/-- Doubled quotes stay ahead of the name that is written without them. -/
theorem append_ne_escape {name rest rest' : GoString} (hrest : rest.head? ≠ some (.char q.closing)) (k : Nat) :
    name ++ .char q.closing :: rest ≠
      List.replicate (k + 1) (.char q.closing) ++ (escape q name ++ .char q.closing :: rest') := by
  induction name generalizing k with
  | nil =>
    intro heq
    have htail := (List.cons.inj heq).2
    apply hrest
    rw [htail]
    cases k <;> rfl
  | cons r name ih =>
    intro heq
    obtain ⟨rfl, htail⟩ := List.cons.inj heq
    refine ih (k + 1) (htail.trans ?_)
    rw [escape_cons_closing, replicate_succ', replicate_succ', append_assoc, append_assoc]
    rfl

theorem closing_not_mem_of_append_eq {name rest rest' : GoString} (hrest : rest.head? ≠ some (.char q.closing))
    (h : name ++ .char q.closing :: rest = escape q name ++ .char q.closing :: rest') : .char q.closing ∉ name := by
  induction name with
  | nil => exact not_mem_nil
  | cons r name ih =>
    by_cases hr : r = .char q.closing
    · subst hr
      rw [escape_cons_closing] at h
      exact absurd (List.cons.inj h).2 (append_ne_escape hrest 0)
    · rw [escape_cons hr] at h
      rw [mem_cons, not_or]
      exact ⟨Ne.symm hr, ih (List.cons.inj h).2⟩

/-- A reader sees exactly the identifiers that were quoted if and only if none of them closes its own
quotes. -/
theorem quotedIdentifiers_spell_iff (hq : q.Reserved) {s : Text} (h : Composed s) :
    quotedIdentifiers q (spell q s) = identifiers s ↔ ∀ name ∈ identifiers s, .char q.closing ∉ name := by
  refine ⟨?_, quotedIdentifiers_spell hq h⟩
  induction s with
  | nil => exact nofun
  | cons p s ih =>
    rw [spell_cons]
    have hplain := h.plain p mem_cons_self
    intro hread
    cases p with
    | fixed text =>
      rw [quotedIdentifiers, Piece.text, scan_outside (not_mem_of_isUnreserved hplain hq.opening)] at hread
      exact ih h.tail hread
    | parameter name =>
      rw [quotedIdentifiers, Piece.text, scan_outside (not_mem_parameter hq hplain)] at hread
      exact ih h.tail hread
    | identifier name =>
      have hhead := head_ne_of_isReserved (h.head_spell (q := q) (fun _ => Piece.noConfusion)) hq.closing
      rw [quotedIdentifiers, Piece.text, cons_append, scanIdentifiers, if_pos rfl,
        append_assoc, singleton_append] at hread
      have hfirst := congrArg List.head? hread
      obtain ⟨read, rest, hname, htext⟩ := escape_of_scan_inside hfirst
      subst hname
      have hclosed := closing_not_mem_of_append_eq hhead htext
      rw [scan_inside hclosed, scanIdentifiers, if_pos rfl, scan_closed hhead] at hread
      exact forall_mem_cons.mpr ⟨hclosed, ih h.tail (List.cons.inj hread).2⟩

end

end NpsSdk.Sql
