import Mathlib
import NpsSdk.GoString

/-! Go maps whose keys are any Go strings. Two maps with the same entries are equal. -/

namespace NpsSdk

def GoRune.code : GoRune → Nat
  | .char c => c.toNat
  | .byte b => 1114112 + b.toNat

theorem GoRune.code_injective : Function.Injective GoRune.code := by
  have hbound : ∀ c : Char, c.toNat < 1114112 := fun c => by
    rcases c.valid with h | h
    · exact h.trans (by decide)
    · exact h.2
  intro r r' h
  cases r with
  | char c =>
    cases r' with
    | char c' => rw [Char.toNat_inj.mp h]
    | byte b' =>
      have hc := hbound c
      simp only [code] at h
      omega
  | byte b =>
    cases r' with
    | char c' =>
      have hc := hbound c'
      simp only [code] at h
      omega
    | byte b' => rw [UInt8.toNat.inj (Nat.add_left_cancel h)]

instance : Ord GoRune := ⟨compareOn GoRune.code⟩

instance : Std.TransOrd GoRune := inferInstanceAs (Std.TransCmp (compareOn GoRune.code))

instance : Std.LawfulEqOrd GoRune where
  eq_of_compare h := GoRune.code_injective (Std.LawfulEqOrd.eq_of_compare h)

/-- `map[string]V` with any keys. -/
abbrev GoTable (V : Type) := Std.ExtTreeMap GoString V

namespace GoTable

variable {V : Type} (m : GoTable V) (k a : GoString) (v : V)

theorem getElem?_empty : (∅ : GoTable V)[k]? = none := Std.ExtTreeMap.getElem?_empty

theorem getElem?_insert : (m.insert k v)[a]? = if k = a then some v else m[a]? := by
  simp only [Std.ExtTreeMap.getElem?_insert, Std.LawfulEqCmp.compare_eq_iff_eq]

theorem getElem?_insert_self : (m.insert k v)[k]? = some v := by rw [getElem?_insert, if_pos rfl]

theorem getElem?_erase : (m.erase k)[a]? = if k = a then none else m[a]? := by
  simp only [Std.ExtTreeMap.getElem?_erase, Std.LawfulEqCmp.compare_eq_iff_eq]

theorem getElem?_filter (f : GoString → V → Bool) : (m.filter f)[k]? = m[k]?.filter (f k) :=
  Std.ExtTreeMap.getElem?_filter'

theorem getElem?_map (f : GoString → V → V) : (m.map f)[k]? = m[k]?.map (f k) :=
  Std.ExtTreeMap.getElem?_map

variable {m} in
theorem ext {m' : GoTable V} (h : ∀ k : GoString, m[k]? = m'[k]?) : m = m' :=
  Std.ExtTreeMap.ext_getElem? h

end GoTable

end NpsSdk
