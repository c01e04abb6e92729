import Mathlib

/-! Lists that only grow: an entry is added at the end, and one that is there may change along a relation but neither
leaves nor moves. A step that changes entries relates the two lists place by place. -/

namespace NpsSdk.Ledger

open List

variable {ε : Type} {R : ε → ε → Prop}

variable (R) in
/-- Every entry of the first list is in the second at the same place, changed along `R`. -/
def Extends (l l' : List ε) : Prop :=
  ∀ (i : Nat) (a : ε), l[i]? = some a → ∃ b, l'[i]? = some b ∧ R a b

namespace Extends

theorem refl (hrefl : ∀ e, R e e) (l : List ε) : Extends R l l := fun _ a ha => ⟨a, ha, hrefl a⟩

theorem trans (htrans : ∀ a b c, R a b → R b c → R a c) {l l' l'' : List ε} (h : Extends R l l')
    (h' : Extends R l' l'') : Extends R l l'' := by
  intro i a ha
  obtain ⟨b, hb, hab⟩ := h i a ha
  obtain ⟨c, hc, hbc⟩ := h' i b hb
  exact ⟨c, hc, htrans _ _ _ hab hbc⟩

theorem append (hrefl : ∀ e, R e e) (l new : List ε) : Extends R l (l ++ new) := by
  intro i a ha
  refine ⟨a, ?_, hrefl a⟩
  rw [getElem?_append_left (List.getElem?_eq_some_iff.mp ha).1, ha]

theorem of_forall₂ {l l' : List ε} (h : List.Forall₂ R l l') : Extends R l l' := by
  intro i a ha
  obtain ⟨hi, rfl⟩ := List.getElem?_eq_some_iff.mp ha
  have hi' : i < l'.length := h.length_eq ▸ hi
  exact ⟨l'[i], getElem?_eq_getElem hi', h.get hi hi'⟩

theorem exists_mem {l l' : List ε} (h : Extends R l l') {a : ε} (ha : a ∈ l) : ∃ b ∈ l', R a b := by
  obtain ⟨i, hi⟩ := mem_iff_getElem?.mp ha
  obtain ⟨b, hb, hab⟩ := h i a hi
  exact ⟨b, mem_of_getElem? hb, hab⟩

end Extends

/-! ### Steps that change entries -/

theorem forall₂_trans (htrans : ∀ a b c, R a b → R b c → R a c) {l l' l'' : List ε}
    (h : List.Forall₂ R l l') (h' : List.Forall₂ R l' l'') : List.Forall₂ R l l'' := by
  induction h generalizing l'' with
  | nil => exact h'
  | cons hhead _ ih =>
    cases h' with
    | cons hhead' htail' => exact .cons (htrans _ _ _ hhead hhead') (ih htail')

variable {l l' : List ε}

theorem forall_mem_of_forall₂ {P P' : ε → Prop} (hP : ∀ {a b}, R a b → P a → P' b) (h : List.Forall₂ R l l')
    (hl : ∀ a ∈ l, P a) : ∀ b ∈ l', P' b := by
  induction h with
  | nil => exact forall_mem_nil P'
  | cons hhead _ ih =>
    rw [forall_mem_cons] at hl ⊢
    exact ⟨hP hhead hl.1, ih hl.2⟩

theorem pairwise_of_forall₂ {Q : ε → ε → Prop} (hQ : ∀ {a b a' b'}, R a a' → R b b' → Q a b → Q a' b')
    (h : List.Forall₂ R l l') (hl : l.Pairwise Q) : l'.Pairwise Q := by
  induction h with
  | nil => exact hl
  | cons hhead htail ih =>
    rw [pairwise_cons] at hl ⊢
    refine ⟨?_, ih hl.2⟩
    exact forall_mem_of_forall₂ (fun hab => hQ hhead hab) htail hl.1

/-- The first entry that passes a test is the same one after the step. -/
theorem find?_of_forall₂ {p : ε → Bool} (hp : ∀ {a b}, R a b → p b = p a) (h : List.Forall₂ R l l') {a : ε}
    (ha : l.find? p = some a) : ∃ b, l'.find? p = some b ∧ R a b := by
  induction h with
  | nil => cases ha
  | @cons x y _ _ hhead _ ih =>
    by_cases hx : p x = true
    · rw [find?_cons_of_pos hx] at ha
      cases ha
      exact ⟨y, find?_cons_of_pos ((hp hhead).trans hx), hhead⟩
    · rw [find?_cons_of_neg hx] at ha
      rw [find?_cons_of_neg (by rw [hp hhead]; exact hx)]
      exact ih ha

theorem pairwise_append_singleton {Q : ε → ε → Prop} {l : List ε} {e : ε} (hl : l.Pairwise Q)
    (he : ∀ a ∈ l, Q a e) : (l ++ [e]).Pairwise Q := by
  refine pairwise_append.mpr ⟨hl, pairwise_singleton _ _, ?_⟩
  intro a ha b hb
  rw [mem_singleton.mp hb]
  exact he a ha

/-- With keys that differ, a key picks one entry. -/
theorem filter_key {κ : Type} [DecidableEq κ] {key : ε → κ} {l : List ε}
    (h : l.Pairwise fun a b => key a ≠ key b) {a : ε} (ha : a ∈ l) : l.filter (fun b => key b = key a) = [a] := by
  induction l with
  | nil => cases ha
  | cons x l ih =>
    obtain ⟨hx, hl⟩ := pairwise_cons.mp h
    rcases mem_cons.mp ha with rfl | ha
    · have hnone : l.filter (fun b => key b = key a) = [] :=
        filter_eq_nil_iff.mpr fun b hb heq => hx b hb (of_decide_eq_true heq).symm
      rw [filter_cons, hnone, if_pos (decide_eq_true rfl)]
    · rw [filter_cons, ih hl ha, if_neg fun heq => hx a ha (of_decide_eq_true heq)]

theorem find?_key {κ : Type} [DecidableEq κ] {key : ε → κ} {l : List ε} (h : (l.map key).Nodup) {a : ε}
    (ha : a ∈ l) : l.find? (fun b => key b = key a) = some a := by
  have hpairwise : l.Pairwise fun a b => key a ≠ key b := pairwise_map.mp h
  rw [← head?_filter, filter_key hpairwise ha]
  rfl

end NpsSdk.Ledger
