import NpsSdk.GoString

/-! The `LIKE` predicate of SQL. A percent sign stands for any text and an underscore for any character;
dialects add an escape character and sets of characters in brackets. -/

namespace NpsSdk.Sql

open List

/-- What a dialect adds to the pattern language. -/
structure LikeRules where
  escape : Option Char
  brackets : Bool

inductive PatternItem where
  | any
  | one
  | literal (r : GoRune)
  | set (negated : Bool) (ranges : List (GoRune × GoRune))

def setRanges : GoString → List (GoRune × GoRune)
  | low :: .char '-' :: high :: rest => (low, high) :: setRanges rest
  | r :: rest => (r, r) :: setRanges rest
  | [] => []

/-- The set that is written between brackets. -/
def setItem : GoString → PatternItem
  | .char '^' :: rest => .set true (setRanges rest)
  | members => .set false (setRanges members)

def inRange (r : GoRune) (range : GoRune × GoRune) : Bool :=
  match r, range with
  | .char c, (.char low, .char high) => low ≤ c && c ≤ high
  | r, (low, high) => r = low && r = high

inductive PatternMode where
  | plain
  | escaped
  /-- Between brackets, with what has been read there. -/
  | members (read : GoString)

/-- The items of a pattern; none if it breaks off in the middle of one. -/
def patternItems (rules : LikeRules) : PatternMode → GoString → Option (List PatternItem)
  | .plain, [] => some []
  | .escaped, [] => none
  | .members _, [] => none
  | .escaped, r :: rest => (patternItems rules .plain rest).map (.literal r :: ·)
  | .members read, r :: rest =>
    if r = .char ']' then (patternItems rules .plain rest).map (setItem read :: ·)
    else patternItems rules (.members (read ++ [r])) rest
  | .plain, r :: rest =>
    if r = .char '%' then (patternItems rules .plain rest).map (.any :: ·)
    else if r = .char '_' then (patternItems rules .plain rest).map (.one :: ·)
    else if rules.brackets && r = .char '[' then patternItems rules (.members []) rest
    else if rules.escape.map GoRune.char = some r then patternItems rules .escaped rest
    else (patternItems rules .plain rest).map (.literal r :: ·)

def matchItems : List PatternItem → GoString → Bool
  | [], text => text = []
  | .any :: items, text => text.tails.any (matchItems items)
  | .one :: items, text =>
    match text with
    | _ :: text => matchItems items text
    | [] => false
  | .literal r :: items, text =>
    match text with
    | r' :: text => r' = r && matchItems items text
    | [] => false
  | .set negated ranges :: items, text =>
    match text with
    | r :: text => (ranges.any (inRange r) != negated) && matchItems items text
    | [] => false

def like (rules : LikeRules) (pattern text : GoString) : Bool :=
  match patternItems rules .plain pattern with
  | some items => matchItems items text
  | none => false

/-- A character that does not stand for itself in a pattern. -/
def isWild (rules : LikeRules) (r : GoRune) : Bool :=
  r = .char '%' || r = .char '_' || (rules.brackets && r = .char '[') || rules.escape.map GoRune.char = some r

section

variable {rules : LikeRules}

theorem patternItems_literals {s rest : GoString} (h : ∀ r ∈ s, isWild rules r = false) :
    patternItems rules .plain (s ++ rest) = (patternItems rules .plain rest).map (s.map .literal ++ ·) := by
  induction s with
  | nil => exact Option.map_id'.symm
  | cons r s ih =>
    have hr := h r mem_cons_self
    simp only [isWild, Bool.or_eq_false_iff, decide_eq_false_iff_not] at hr
    obtain ⟨⟨⟨hany, hone⟩, hset⟩, hescape⟩ := hr
    rw [cons_append, patternItems, if_neg hany, if_neg hone, if_neg (by rw [hset]; exact Bool.false_ne_true),
      if_neg hescape, ih fun r hr => h r (mem_cons_of_mem _ hr), Option.map_map]
    rfl

theorem matchItems_literals (s : GoString) (text : GoString) :
    matchItems (s.map .literal ++ [.any]) text = true ↔ s <+: text := by
  induction s generalizing text with
  | nil =>
    refine ⟨fun _ => nil_prefix, fun _ => ?_⟩
    rw [map_nil, nil_append, matchItems, any_eq_true]
    exact ⟨[], (mem_tails _ _).mpr nil_suffix, rfl⟩
  | cons r s ih =>
    cases text with
    | nil => exact ⟨nofun, fun h => (by cases prefix_nil.mp h)⟩
    | cons r' text =>
      rw [map_cons, cons_append, matchItems, Bool.and_eq_true, decide_eq_true_eq, ih text, cons_prefix_cons]
      exact and_congr_left' eq_comm

/-- Text between two percent signs is looked for as it is, if it has no wild characters. -/
theorem like_contains {s : GoString} (h : ∀ r ∈ s, isWild rules r = false) (text : GoString) :
    like rules ("%" ++ s ++ "%") text = decide (s <:+: text) := by
  have hitems : patternItems rules .plain ("%" ++ s ++ "%") = some (.any :: (s.map .literal ++ [.any])) := by
    change patternItems rules .plain (.char '%' :: (s ++ [.char '%'])) = _
    rw [patternItems, patternItems_literals h]
    rfl
  rw [like, hitems, Bool.eq_iff_iff, decide_eq_true_eq, infix_iff_prefix_suffix]
  change (text.tails.any _) = true ↔ _
  rw [any_eq_true]
  refine exists_congr fun tail => ?_
  rw [mem_tails, matchItems_literals]
  exact and_comm

end

end NpsSdk.Sql
