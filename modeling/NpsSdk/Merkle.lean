import Mathlib

/-! Merkle trees over a list of leaves as RFC 6962 builds them: the left subtree is the largest perfect
one that leaves something for the right. The digests of leaves and how two digests are joined are
parameters. An inclusion proof is a list of sibling digests; on which side each sibling stands is data of
its own, so that a verifier that finds the sides in another way can be compared. -/

namespace NpsSdk.Merkle

open List Nat

inductive Shape where
  | leaf
  | node (left right : Shape)

namespace Shape

def size : Shape → Nat
  | .leaf => 1
  | .node left right => left.size + right.size

/-- For each step from a leaf to the root, whether the sibling stands on the left. -/
def sides : Shape → Nat → List Bool
  | .leaf, _ => []
  | .node left right, i =>
    if i < left.size then left.sides i ++ [false] else right.sides (i - left.size) ++ [true]

/-- The leaf that turns lead to from the root, `true` being a turn to the right. -/
def locate : Shape → List Bool → Option Nat
  | .leaf, [] => some 0
  | .node left _, false :: turns => left.locate turns
  | .node left right, true :: turns => (right.locate turns).map (left.size + ·)
  | _, _ => none

theorem locate_lt (t : Shape) {turns : List Bool} {p : Nat} (h : t.locate turns = some p) : p < t.size := by
  induction t generalizing turns p with
  | leaf =>
    cases turns with
    | nil =>
      cases h
      exact one_pos
    | cons => cases h
  | node left right ihl ihr =>
    match turns, h with
    | false :: turns, h => exact Nat.lt_add_right _ (ihl h)
    | true :: turns, h =>
      obtain ⟨q, hq, rfl⟩ := Option.map_eq_some_iff.mp h
      exact Nat.add_lt_add_left (ihr hq) _

end Shape

section

variable {D : Type} (join : D → D → D)

def root : Shape → (Nat → D) → D
  | .leaf, d => d 0
  | .node left right, d => join (root left d) (root right fun i => d (left.size + i))

def auditPath : Shape → Nat → (Nat → D) → List D
  | .leaf, _, _ => []
  | .node left right, i, d =>
    if i < left.size then auditPath left i d ++ [root join right fun i => d (left.size + i)]
    else auditPath right (i - left.size) (fun i => d (left.size + i)) ++ [root join left d]

/-- The digest that siblings on given sides lead to. -/
def climb (x : D) (steps : List (Bool × D)) : D :=
  steps.foldl (fun acc step => if step.1 then join step.2 acc else join acc step.2) x

theorem climb_append (x : D) (steps : List (Bool × D)) (side : Bool) (sibling : D) :
    climb join x (steps ++ [(side, sibling)]) =
      if side then join sibling (climb join x steps) else join (climb join x steps) sibling := by
  rw [climb, foldl_append]
  rfl

theorem length_auditPath (t : Shape) (i : Nat) (d : Nat → D) : (auditPath join t i d).length = (t.sides i).length := by
  induction t generalizing i d with
  | leaf => rfl
  | node left right ihl ihr =>
    rw [auditPath, Shape.sides]
    split_ifs
    · rw [length_append, length_append, ihl]
      rfl
    · rw [length_append, length_append, ihr]
      rfl

theorem climb_auditPath (t : Shape) {i : Nat} (hi : i < t.size) (d : Nat → D) :
    climb join (d i) ((t.sides i).zip (auditPath join t i d)) = root join t d := by
  induction t generalizing i d with
  | leaf =>
    rw [Shape.size, lt_one_iff] at hi
    rw [hi]
    rfl
  | node left right ihl ihr =>
    rw [Shape.sides, auditPath]
    split_ifs with hleft
    · rw [zip_append (length_auditPath join left i d).symm, zip_cons_cons, zip_nil_right, climb_append, ihl hleft]
      rfl
    rw [Shape.size] at hi
    have hi' : i - left.size < right.size := by omega
    have hleaf := ihr hi' fun i => d (left.size + i)
    rw [Nat.add_sub_cancel' (Nat.le_of_not_lt hleft)] at hleaf
    rw [zip_append (length_auditPath join right _ _).symm, zip_cons_cons, zip_nil_right, climb_append, hleaf]
    rfl

variable {d : Nat → D}

/-- A tree over leaves that are all alike, if joining their digest with itself changes nothing. -/
theorem root_of_forall_eq {z : D} (hz : join z z = z) (t : Shape) (hd : ∀ j < t.size, d j = z) : root join t d = z := by
  induction t generalizing d with
  | leaf => exact hd 0 Nat.one_pos
  | node left right ihl ihr =>
    rw [root, ihl fun j hj => hd j (Nat.lt_add_right _ hj), ihr fun j hj => hd _ (Nat.add_lt_add_left hj _), hz]

/-- If one leaf differs from all the others, the siblings on its path are those of the others. -/
theorem eq_of_mem_auditPath {z : D} (hz : join z z = z) (t : Shape) {i : Nat} (hi : i < t.size)
    (hd : ∀ j < t.size, j ≠ i → d j = z) {x : D} (hx : x ∈ auditPath join t i d) : x = z := by
  induction t generalizing i d with
  | leaf => cases hx
  | node left right ihl ihr =>
    rw [Shape.size] at hi hd
    rw [auditPath] at hx
    split_ifs at hx with hleft
    · rw [mem_append, mem_singleton] at hx
      rcases hx with hx | rfl
      · exact ihl hleft (fun j hj hne => hd j (by omega) hne) hx
      · exact root_of_forall_eq join hz right fun j hj => hd _ (by omega) (by omega)
    · rw [mem_append, mem_singleton] at hx
      rcases hx with hx | rfl
      · exact ihr (by omega) (fun j hj hne => hd _ (by omega) (by omega)) hx
      · exact root_of_forall_eq join hz left fun j hj => hd j (by omega) (by omega)

/-- No digest but its own leads to a digest of the tree: an inner digest is that of its two parts only
and not the one claimed for a leaf, and no leaf has an inner digest. -/
def Binding (x : D) : Shape → (Nat → D) → Prop
  | .leaf, d => ∀ a b, join a b ≠ d 0
  | .node left right, d =>
    (∀ a b, join a b = root join (.node left right) d →
      a = root join left d ∧ b = root join right fun i => d (left.size + i)) ∧
    x ≠ root join (.node left right) d ∧ Binding x left d ∧
    Binding x right fun i => d (left.size + i)

/-- Steps that reach the root of a binding tree start at the leaf that their sides lead to. -/
theorem locate_of_climb {x : D} (t : Shape) (hbinding : Binding join x t d) {steps : List (Bool × D)}
    (h : climb join x steps = root join t d) : ∃ p, t.locate (steps.map (·.1)).reverse = some p ∧ x = d p := by
  -- the last step belongs to the topmost node, so the induction takes the steps from the end
  induction t generalizing steps d with
  | leaf =>
    rcases eq_nil_or_concat' steps with rfl | ⟨init, ⟨side, sibling⟩, rfl⟩
    · exact ⟨0, rfl, h⟩
    rw [climb_append] at h
    cases side
    · exact absurd h (hbinding _ _)
    · exact absurd h (hbinding _ _)
  | node left right ihl ihr =>
    obtain ⟨hparts, hx, hbl, hbr⟩ := hbinding
    rcases eq_nil_or_concat' steps with rfl | ⟨init, ⟨side, sibling⟩, rfl⟩
    · exact absurd h hx
    rw [climb_append] at h
    rw [map_append, reverse_append]
    cases side with
    | false =>
      obtain ⟨p, hp, hxp⟩ := ihl hbl (hparts _ _ h).1
      exact ⟨p, hp, hxp⟩
    | true =>
      obtain ⟨p, hp, hxp⟩ := ihr hbr (hparts _ _ h).2
      refine ⟨left.size + p, ?_, hxp⟩
      rw [map_cons, map_nil, reverse_singleton, singleton_append, Shape.locate, hp, Option.map_some]

end

/-! ### The trees of RFC 6962 -/

/-- The largest power of two below a number. -/
def split (n : Nat) : Nat := 2 ^ (Nat.clog 2 n - 1)

theorem split_pos (n : Nat) : 0 < split n := Nat.pow_pos (by decide)

variable {n : Nat}

theorem split_lt (hn : 2 ≤ n) : split n < n :=
  pow_pred_clog_lt_self (by decide) hn

def shape (n : Nat) : Shape :=
  if h : 2 ≤ n then
    have := split_lt h
    have := split_pos n
    .node (shape (split n)) (shape (n - split n))
  else .leaf
termination_by n

theorem shape_of_le (hn : 2 ≤ n) : shape n = .node (shape (split n)) (shape (n - split n)) := by
  rw [shape, dif_pos hn]

theorem shape_of_lt (hn : n < 2) : shape n = .leaf := by
  rw [shape, dif_neg (Nat.not_le_of_lt hn)]

theorem size_shape (hn : 0 < n) : (shape n).size = n := by
  induction n using Nat.strongRecOn with
  | ind n ih =>
    by_cases h : 2 ≤ n
    · have hlt := split_lt h
      have hpos := split_pos n
      rw [shape_of_le h, Shape.size, ih _ hlt hpos, ih _ (by omega) (by omega)]
      omega
    · rw [shape_of_lt (Nat.lt_of_not_le h), Shape.size]
      omega

/-- The right part is no larger than the left one. -/
theorem sub_split_le (n : Nat) : n - split n ≤ split n := by
  have hn : n ≤ 2 ^ Nat.clog 2 n := Nat.le_pow_clog (by decide) n
  have hstep : 2 ^ Nat.clog 2 n ≤ 2 ^ (Nat.clog 2 n - 1 + 1) :=
    Nat.pow_le_pow_right (by decide) (by omega)
  rw [split]
  omega

theorem clog_eq_succ (hn : 2 ≤ n) : clog 2 n = clog 2 n - 1 + 1 :=
  (succ_pred_eq_of_pos (clog_pos (by decide) hn)).symm

theorem clog_split (n : Nat) : clog 2 (split n) = clog 2 n - 1 := clog_pow 2 _ (by decide)

theorem clog_sub_split_le (n : Nat) : clog 2 (n - split n) ≤ clog 2 n - 1 := by
  rw [← clog_split n]
  exact clog_mono_right 2 (sub_split_le n)

theorem sides_of_lt {n i : Nat} (hn : 2 ≤ n) (hi : i < split n) :
    (shape n).sides i = (shape (split n)).sides i ++ [false] := by
  rw [shape_of_le hn, Shape.sides, size_shape (split_pos n), if_pos hi]

theorem sides_of_le {n i : Nat} (hn : 2 ≤ n) (hi : split n ≤ i) :
    (shape n).sides i = (shape (n - split n)).sides (i - split n) ++ [true] := by
  rw [shape_of_le hn, Shape.sides, size_shape (split_pos n), if_neg (Nat.not_lt_of_le hi)]

theorem length_sides_le {n i : Nat} (hi : i < n) : ((shape n).sides i).length ≤ Nat.clog 2 n := by
  induction n using Nat.strongRecOn generalizing i with
  | ind n ih =>
    by_cases hn : 2 ≤ n
    · have hclog := clog_eq_succ hn
      by_cases hleft : i < split n
      · have hle := ih _ (split_lt hn) hleft
        rw [clog_split] at hle
        rw [sides_of_lt hn hleft, length_append, length_singleton]
        omega
      · have hpos := split_pos n
        have hle := ih (n - split n) (by omega) (i := i - split n) (by omega)
        have hclog' := clog_sub_split_le n
        rw [sides_of_le hn (Nat.le_of_not_lt hleft), length_append, length_singleton]
        omega
    · rw [shape_of_lt (Nat.lt_of_not_le hn)]
      exact Nat.zero_le _

theorem length_sides_two_pow {m i : Nat} (hi : i < 2 ^ m) : ((shape (2 ^ m)).sides i).length = m := by
  induction m generalizing i with
  | zero => rw [pow_zero, shape_of_lt (by decide), Shape.sides, length_nil]
  | succ m ih =>
    have hn : 2 ≤ 2 ^ (m + 1) := Nat.le_self_pow (Nat.succ_ne_zero m) 2
    have hsplit : split (2 ^ (m + 1)) = 2 ^ m := by
      rw [split, Nat.clog_pow 2 _ (by decide), Nat.add_sub_cancel]
    have hrest : 2 ^ (m + 1) - 2 ^ m = 2 ^ m := by
      rw [Nat.pow_succ, Nat.mul_two, Nat.add_sub_cancel]
    by_cases hleft : i < 2 ^ m
    · rw [sides_of_lt hn (by rw [hsplit]; exact hleft), hsplit, length_append, ih hleft, length_singleton]
    · rw [sides_of_le hn (by rw [hsplit]; exact Nat.le_of_not_lt hleft), hsplit, hrest,
        length_append, ih (by omega), length_singleton]

def bits (i len : Nat) : List Bool := (List.range len).map i.testBit

theorem bits_succ (i len : Nat) : bits i (len + 1) = bits i len ++ [i.testBit len] := by
  rw [bits, range_succ, map_append]
  rfl

theorem length_bits (i len : Nat) : (bits i len).length = len := by
  rw [bits, length_map, length_range]

/-- A leading one does not show in the bits below it. -/
theorem bits_two_pow_add {m i len : Nat} (h : len ≤ m) : bits (2 ^ m + i) len = bits i len := by
  apply map_congr_left
  intro j hj
  exact testBit_two_pow_add_gt (lt_of_lt_of_le (mem_range.mp hj) h) i

/-- The step above a right part: what the bits of the leaf's number in the part say about its sides, the
bits of the whole index say about the sides of the whole path if no level lies between. -/
theorem append_true_eq_bits_iff {sides : List Bool} {i h m : Nat} (hi : i < 2 ^ h)
    (hlength : sides.length ≤ h) (hm : h ≤ m) (hsides : sides = bits i sides.length ↔ sides.length = h) :
    sides ++ [true] = bits (2 ^ m + i) (sides.length + 1) ↔ sides.length = m := by
  rw [bits_succ, bits_two_pow_add (le_trans hlength hm)]
  refine ⟨?_, ?_⟩
  · intro heq
    obtain ⟨hinit, hlast⟩ := append_inj heq (length_bits _ _).symm
    have hdeep := hsides.mp hinit
    rw [hdeep, cons_eq_cons] at hlast
    by_contra hne
    rw [testBit_two_pow_add_gt (by omega), testBit_lt_two_pow hi] at hlast
    exact absurd hlast.1 (by decide)
  · intro hdeep
    have hh : h = m := by omega
    subst hh
    rw [← hsides.mpr hdeep, hdeep, testBit_two_pow_add_eq, testBit_lt_two_pow hi]
    rfl

/-- The sides of a path can be read off the bits of the index exactly for the leaves on the deepest
level: the path of any other leaf skips a level, and the bits do not. -/
theorem sides_eq_bits_iff {n i : Nat} (hi : i < n) : (shape n).sides i = bits i ((shape n).sides i).length ↔
      ((shape n).sides i).length = Nat.clog 2 n := by
  induction n using Nat.strongRecOn generalizing i with
  | ind n ih =>
    by_cases hn : 2 ≤ n
    · have hclog := clog_eq_succ hn
      by_cases hleft : i < split n
      · have hdeep : ((shape (split n)).sides i).length = clog 2 n - 1 :=
          length_sides_two_pow hleft
        have hbits := (ih _ (split_lt hn) hleft).mpr (by rw [hdeep, clog_split])
        rw [sides_of_lt hn hleft, length_append, length_singleton, bits_succ, hdeep,
          ← hclog, eq_self_iff_true, iff_true, ← hdeep, ← hbits, hdeep,
          testBit_lt_two_pow hleft]
      · have hpos := split_pos n
        have hi' : i - split n < n - split n := by omega
        have hsum : i = 2 ^ (clog 2 n - 1) + (i - split n) := by
          rw [← split]
          omega
        have hright := append_true_eq_bits_iff
          (lt_of_lt_of_le hi' (le_pow_clog (by decide) _)) (length_sides_le hi')
          (clog_sub_split_le n) (ih (n - split n) (by omega) hi')
        rw [← hsum] at hright
        rw [sides_of_le hn (Nat.le_of_not_lt hleft), length_append, length_singleton,
          hright, hclog, Nat.add_right_cancel_iff]
        rfl
    · have hzero : Nat.clog 2 n = 0 := Nat.clog_of_right_le_one (by omega) 2
      rw [shape_of_lt (Nat.lt_of_not_le hn), hzero]
      exact iff_of_true rfl rfl

end NpsSdk.Merkle
