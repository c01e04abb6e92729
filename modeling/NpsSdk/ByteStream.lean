import Mathlib

/-! Streams of bytes and readers that take values off their front. A stream has finitely many bytes to
come and then ends or fails. A reader that gives back what a writer wrote, whatever follows, gives back a
whole sequence. -/

namespace NpsSdk

open List

inductive StreamEnd (E : Type) where
  | eof
  | failure (e : E)
  deriving DecidableEq

structure Stream (E : Type) where
  bytes : List UInt8
  ending : StreamEnd E
  deriving DecidableEq

inductive ReadError (E : Type) where
  | eof
  | unexpectedEOF
  | failure (e : E)
  deriving DecidableEq

namespace Stream

variable {E : Type}

def prepend (bs : List UInt8) (s : Stream E) : Stream E := { s with bytes := bs ++ s.bytes }

@[simp]
theorem prepend_nil (s : Stream E) : prepend [] s = s := rfl

theorem prepend_append (bs bs' : List UInt8) (s : Stream E) : prepend (bs ++ bs') s = prepend bs (prepend bs' s) := by
  rw [prepend, prepend, prepend, append_assoc]

/-- What a read reports that finds the stream short. -/
def shortRead (s : Stream E) : ReadError E :=
  match s.ending with
  | .failure e => .failure e
  | .eof => if s.bytes = [] then .eof else .unexpectedEOF

def readFull (n : Nat) (s : Stream E) : Except (ReadError E) (List UInt8 × Stream E) :=
  if n ≤ s.bytes.length then .ok (s.bytes.take n, { s with bytes := s.bytes.drop n })
  else .error s.shortRead

theorem readFull_prepend (bs : List UInt8) (s : Stream E) : readFull bs.length (prepend bs s) = .ok (bs, s) := by
  have hle : bs.length ≤ (prepend bs s).bytes.length := by
    rw [prepend, length_append]
    exact Nat.le_add_right _ _
  rw [readFull, if_pos hle, prepend, take_left, drop_left]

variable {bs : List UInt8}

/-- A read that succeeds takes the bytes it was asked for off the front. -/
theorem readFull_ok {n : Nat} {s rest : Stream E} (h : readFull n s = .ok (bs, rest)) :
    bs.length = n ∧ s = prepend bs rest := by
  rw [readFull] at h
  split_ifs at h with hle
  cases h
  refine ⟨length_take_of_le hle, ?_⟩
  rw [prepend, take_append_drop]

theorem readFull_ok_iff {n : Nat} {s rest : Stream E} :
    readFull n s = .ok (bs, rest) ↔ bs.length = n ∧ s = prepend bs rest := by
  refine ⟨readFull_ok, ?_⟩
  rintro ⟨rfl, rfl⟩
  exact readFull_prepend bs rest

end Stream

/-! ### Reading one value after the other -/

section

variable {E ε α β : Type}

/-- The values read until a read fails, with the stream before that read and its error. The number
bounds the work. -/
def readAll (read : Stream E → Except ε (α × Stream E)) : Nat → Stream E → List α × Stream E × Option ε
  | 0, s => ([], s, none)
  | fuel + 1, s =>
    match read s with
    | .error e => ([], s, some e)
    | .ok (a, rest) =>
      let more := readAll read fuel rest
      (a :: more.1, more.2)

/-- The same for a reader that takes at least one byte off the stream each time. -/
def readStream (read : Stream E → Except ε (α × Stream E)) (s : Stream E) : List α × Stream E × Option ε :=
  readAll read (s.bytes.length + 1) s

variable {read : Stream E → Except ε (α × Stream E)} {write : β → List UInt8}

theorem readAll_flatMap {value : β → α} (hread : ∀ b s, read (Stream.prepend (write b) s) = .ok (value b, s))
    {s : Stream E} {e : ε} (hend : read s = .error e) (items : List β) {fuel : Nat} (hfuel : items.length < fuel) :
    readAll read fuel (Stream.prepend (items.flatMap write) s) = (items.map value, s, some e) := by
  induction items generalizing fuel with
  | nil =>
    obtain ⟨fuel, rfl⟩ := Nat.exists_eq_succ_of_ne_zero (Nat.ne_zero_of_lt hfuel)
    rw [flatMap_nil, Stream.prepend_nil, readAll, hend, map_nil]
  | cons b items ih =>
    obtain ⟨fuel, rfl⟩ := Nat.exists_eq_succ_of_ne_zero (Nat.ne_zero_of_lt hfuel)
    rw [flatMap_cons, Stream.prepend_append, readAll, hread]
    dsimp only
    rw [ih (Nat.lt_of_succ_lt_succ hfuel), map_cons]

theorem length_le_length_flatMap (hwrite : ∀ b, write b ≠ []) (items : List β) :
    items.length ≤ (items.flatMap write).length := by
  induction items with
  | nil => exact Nat.le_refl 0
  | cons b =>
    have hpos := length_pos_of_ne_nil (hwrite b)
    rw [flatMap_cons, length_append, length_cons]
    omega

/-- What is written value by value is read value by value, and the end of the stream is met with nothing
left. -/
theorem readStream_flatMap {value : β → α} (hread : ∀ b s, read (Stream.prepend (write b) s) = .ok (value b, s))
    (hwrite : ∀ b, write b ≠ []) {s : Stream E} {e : ε} (hend : read s = .error e) (items : List β) :
    readStream read (Stream.prepend (items.flatMap write) s) = (items.map value, s, some e) := by
  apply readAll_flatMap hread hend
  have hle := length_le_length_flatMap hwrite items
  rw [Stream.prepend, length_append]
  omega

/-- Two reads end alike: both fail, or both succeed with related values and the same rest. -/
def ReadsAgree {ε' : Type} (R : α → β → Prop) : Except ε (α × Stream E) → Except ε' (β × Stream E) → Prop
  | .ok (a, s), .ok (b, s') => R a b ∧ s = s'
  | .error _, .error _ => True
  | _, _ => False

/-- Readers that agree on every stream read related sequences. -/
theorem readAll_agree {ε' : Type} {read' : Stream E → Except ε' (β × Stream E)} {R : α → β → Prop}
    (hagree : ∀ s, ReadsAgree R (read s) (read' s)) (fuel : Nat) (s : Stream E) :
    List.Forall₂ R (readAll read fuel s).1 (readAll read' fuel s).1 ∧
      (readAll read fuel s).2.1 = (readAll read' fuel s).2.1 := by
  induction fuel generalizing s with
  | zero => exact ⟨.nil, rfl⟩
  | succ fuel ih =>
    have hs := hagree s
    cases hread : read s with
    | error e =>
      cases hread' : read' s with
      | error e' =>
        simp only [readAll, hread, hread', and_true]
        exact .nil
      | ok p =>
        rw [hread, hread'] at hs
        exact hs.elim
    | ok p =>
      cases hread' : read' s with
      | error e' =>
        rw [hread, hread'] at hs
        exact hs.elim
      | ok q =>
        rw [hread, hread'] at hs
        obtain ⟨hvalue, hrest⟩ := hs
        simp only [readAll, hread, hread']
        obtain ⟨hitems, hend⟩ := ih p.2
        rw [hrest] at hitems hend ⊢
        exact ⟨.cons hvalue hitems, hend⟩

end

end NpsSdk
