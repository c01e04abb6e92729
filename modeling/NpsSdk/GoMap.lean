import Mathlib

/-! Go maps with string keys. Two maps with the same entries are equal, so an equation between maps
does not depend on the order in which entries were written; the order in which a `range` loop meets
the entries is a parameter of the loop. -/

namespace NpsSdk

open List Std.ExtTreeMap

/-! ### Functions on lists by their equations -/

section

variable {α β : Type}

theorem eq_map_of_cons {f : List α → List β} {g : α → β} (hnil : f [] = [])
    (hcons : ∀ a as, f (a :: as) = g a :: f as) (as : List α) : f as = as.map g := by
  induction as with
  | nil => exact hnil
  | cons a as ih => rw [hcons, ih, map_cons]

theorem eq_all_of_cons {f : List α → Bool} {g : α → Bool} (hnil : f [] = true)
    (hcons : ∀ a as, f (a :: as) = (g a && f as)) (as : List α) : f as = as.all g := by
  induction as with
  | nil => exact hnil
  | cons a as ih => rw [hcons, ih, all_cons]

theorem eq_mapM_of_cons {f : List α → Option (List β)} {g : α → Option β} (hnil : f [] = some [])
    (hcons : ∀ a as, f (a :: as) = (g a).bind fun b => (f as).map (b :: ·)) (as : List α) : f as = as.mapM g := by
  induction as with
  | nil => exact hnil
  | cons a as ih =>
    rw [hcons, ih, mapM_cons]
    cases g a with
    | none => rfl
    | some b => cases as.mapM g <;> rfl

end

abbrev GoMap (V : Type) := Std.ExtTreeMap String V

namespace GoMap

variable {V : Type} (m : GoMap V) (k a : String) (v : V)

theorem getElem?_insert : (m.insert k v)[a]? = if k = a then some v else m[a]? := by
  simp only [Std.ExtTreeMap.getElem?_insert, Std.LawfulEqCmp.compare_eq_iff_eq]

theorem getElem?_insert_ne (h : k ≠ a) : (m.insert k v)[a]? = m[a]? := by
  rw [getElem?_insert, if_neg h]

theorem getElem?_erase : (m.erase k)[a]? = if k = a then none else m[a]? := by
  simp only [Std.ExtTreeMap.getElem?_erase, Std.LawfulEqCmp.compare_eq_iff_eq]

theorem getElem?_filter (f : String → V → Bool) : (m.filter f)[k]? = m[k]?.filter (f k) := by
  rw [Std.ExtTreeMap.getElem?_filter]
  simp only [Std.ExtTreeMap.getKey_eq, Option.pfilter_eq_filter]

theorem mem_iff_exists : a ∈ m ↔ ∃ w, m[a]? = some w := by
  rw [Std.ExtTreeMap.mem_iff_isSome_getElem?, Option.isSome_iff_exists]

theorem mem_insert : a ∈ m.insert k v ↔ k = a ∨ a ∈ m := by
  rw [Std.ExtTreeMap.mem_insert, Std.LawfulEqCmp.compare_eq_iff_eq]

theorem mem_erase : a ∈ m.erase k ↔ k ≠ a ∧ a ∈ m := by
  rw [Std.ExtTreeMap.mem_erase, ne_eq, Std.LawfulEqCmp.compare_eq_iff_eq]

theorem size_insert_of_not_mem (h : k ∉ m) : (m.insert k v).size = m.size + 1 := by
  rw [Std.ExtTreeMap.size_insert, if_neg]
  rwa [Std.ExtTreeMap.contains_iff_mem]

theorem size_erase_le : (m.erase k).size ≤ m.size := Std.ExtTreeMap.size_erase_le

theorem not_mem_iff : a ∉ m ↔ m[a]? = none := by
  rw [mem_iff_isSome_getElem?, Option.not_isSome_iff_eq_none]

theorem size_eq_zero_iff : m.size = 0 ↔ ∀ key, key ∉ m := by
  rw [← eq_empty_iff_size_eq_zero, eq_empty_iff_forall_not_mem]

/-- A map with keys from a list and no fewer entries than the list has every key of it. -/
theorem mem_of_length_le_size {keys : List String} (hkeys : ∀ key ∈ m, key ∈ keys)
    (hsize : keys.length ≤ m.size) {key : String} (hkey : key ∈ keys) : key ∈ m := by
  have hsub : m.keys.Subperm keys :=
    nodup_keys.subperm fun key h => hkeys key (mem_keys.mp h)
  have hperm := hsub.perm_of_length_le (by rw [length_keys]; exact hsize)
  exact mem_keys.mp (hperm.mem_iff.mpr hkey)

/-! ### Maps from lists of entries -/

/-- The map with given entries; a later entry of the same key replaces an earlier one. -/
def ofList (fields : List (String × V)) : GoMap V :=
  fields.foldl (fun m field => m.insert field.1 field.2) ∅

theorem foldl_insert_eq_insertMany (fields : List (String × V)) (m : GoMap V) :
    fields.foldl (fun m field => m.insert field.1 field.2) m = m.insertMany fields := by
  induction fields generalizing m with
  | nil => rw [insertMany_nil, foldl_nil]
  | cons field fields ih =>
    rw [foldl_cons, ih]
    exact insertMany_cons.symm

/-- The entries of a map give the map back. -/
theorem ofList_toList : ofList m.toList = m := by
  rw [ofList, foldl_insert_eq_insertMany]
  apply Std.ExtTreeMap.ext_getElem?
  intro key
  cases hkey : m[key]? with
  | some v =>
    exact getElem?_insertMany_list_of_mem Std.ReflCmp.compare_self
      distinct_keys_toList (mem_toList_iff_getElem?_eq_some.mpr hkey)
  | none =>
    have hnot : (m.toList.map Prod.fst).contains key = false := by
      rw [Bool.eq_false_iff]
      intro hmem
      obtain ⟨⟨_, v⟩, hv, rfl⟩ := mem_map.mp (contains_iff_mem.mp hmem)
      rw [mem_toList_iff_getElem?_eq_some.mp hv] at hkey
      cases hkey
    rw [getElem?_insertMany_list_of_contains_eq_false hnot, getElem?_empty]

variable {fields : List (String × V)}

theorem getElem?_ofList_mapM {W : Type} {f : V → Option W} {out : List (String × W)}
    (h : fields.mapM (fun field => (f field.2).map (field.1, ·)) = some out) (key : String) :
    (ofList out)[key]? = (ofList fields)[key]?.bind f := by
  have hfold : ∀ (fields : List (String × V)) (out : List (String × W)) (m : GoMap V) (m' : GoMap W),
      fields.mapM (fun field => (f field.2).map (field.1, ·)) = some out →
      m'[key]? = m[key]?.bind f →
      (out.foldl (fun m field => m.insert field.1 field.2) m')[key]? =
        (fields.foldl (fun m field => m.insert field.1 field.2) m)[key]?.bind f := by
    intro fields
    induction fields with
    | nil =>
      intro out m m' hout hm
      cases hout
      exact hm
    | cons field fields ih =>
      intro out m m' hout hm
      rw [mapM_cons] at hout
      cases hvalue : f field.2 with
      | none =>
        rw [hvalue] at hout
        cases hout
      | some w =>
        cases hrest : fields.mapM (fun field => (f field.2).map (field.1, ·)) with
        | none =>
          rw [hvalue, hrest] at hout
          cases hout
        | some rest =>
          rw [hvalue, hrest] at hout
          cases hout
          apply ih rest _ _ hrest
          rw [getElem?_insert, getElem?_insert]
          split_ifs
          · exact hvalue.symm
          · exact hm
  exact hfold fields out ∅ ∅ h (by simp only [getElem?_empty, Option.bind_none])

theorem ofList_map {W : Type} (f : V → W) (fields : List (String × V)) :
    ofList (fields.map fun field => (field.1, f field.2)) = (ofList fields).map fun _ v => f v := by
  have hmap : fields.mapM (fun field => ((fun v => some (f v)) field.2).map (field.1, ·)) =
      some (fields.map fun field => (field.1, f field.2)) :=
    mapM_pure
  apply Std.ExtTreeMap.ext_getElem?
  intro key
  rw [getElem?_ofList_mapM (f := fun v => some (f v)) hmap, Std.ExtTreeMap.getElem?_map]
  cases (ofList fields)[key]? <;> rfl

theorem exists_mapM {W : Type} {f : V → Option W} (h : ∀ field ∈ fields, ∃ w, f field.2 = some w) :
    ∃ out, fields.mapM (fun field => (f field.2).map (field.1, ·)) = some out := by
  induction fields with
  | nil => exact ⟨[], rfl⟩
  | cons field fields ih =>
    obtain ⟨w, hw⟩ := h field mem_cons_self
    obtain ⟨out, hout⟩ := ih fun field' hfield' => h field' (mem_cons_of_mem _ hfield')
    refine ⟨(field.1, w) :: out, ?_⟩
    rw [mapM_cons, hw, hout]
    rfl

theorem mem_of_getElem?_ofList {key : String} {v : V} (h : (ofList fields)[key]? = some v) : (key, v) ∈ fields := by
  have hfold : ∀ (fields : List (String × V)) (m : GoMap V),
      (fields.foldl (fun m field => m.insert field.1 field.2) m)[key]? = some v →
        (key, v) ∈ fields ∨ m[key]? = some v := by
    intro fields
    induction fields with
    | nil => exact fun m hm => .inr hm
    | cons field fields ih =>
      intro m hm
      rcases ih _ hm with hmem | hentry
      · exact .inl (mem_cons_of_mem _ hmem)
      rw [getElem?_insert] at hentry
      split_ifs at hentry with hkey
      · refine .inl (mem_cons.mpr (.inl ?_))
        cases hentry
        exact Prod.ext hkey.symm rfl
      · exact .inr hentry
  rcases hfold fields ∅ h with hmem | hempty
  · exact hmem
  · cases hempty

/-! ### Loops over the keys -/

/-- Entries written one after the other commute where the value depends on the key only. -/
theorem insert_comm {f : String → V} (a b : String) :
    (m.insert a (f a)).insert b (f b) = (m.insert b (f b)).insert a (f a) := by
  apply Std.ExtTreeMap.ext_getElem?
  intro k
  simp only [getElem?_insert]
  split_ifs with hb ha ha
  · rw [hb, ha]
  all_goals rfl

end GoMap

/-- A loop that may stop early gives the same result in every order of the keys if its steps
commute. -/
theorem foldlM_perm {α β : Type} {f : β → α → Option β}
    (hcomm : ∀ b x y, ((f b x).bind fun b => f b y) = (f b y).bind fun b => f b x)
    {l l' : List α} (h : l.Perm l') (b : β) : l.foldlM f b = l'.foldlM f b := by
  induction h generalizing b with
  | nil => rfl
  | cons x _ ih =>
    rw [foldlM_cons]
    exact congrArg _ (funext ih)
  | swap x y l =>
    simp only [foldlM_cons, ← bind_assoc]
    exact congrArg (· >>= fun b => l.foldlM f b) (hcomm b y x)
  | trans _ _ ih₁ ih₂ => rw [ih₁, ih₂]

namespace GoMap

variable {V : Type}

/-- The map a `range` loop writes that visits the keys in the given order. -/
def collect (order : List String) (f : String → V) : GoMap V :=
  order.foldl (fun acc k => acc.insert k (f k)) ∅

variable {order order' : List String}

theorem collect_perm (h : order.Perm order') (f : String → V) : collect order f = collect order' f :=
  have : RightCommutative fun (acc : GoMap V) k => acc.insert k (f k) :=
    ⟨fun acc a b => insert_comm acc a b⟩
  h.foldl_eq ∅

/-- The same with a value that may be missing, which ends the loop. -/
def collectM (order : List String) (f : String → Option V) : Option (GoMap V) :=
  order.foldlM (fun acc k => (f k).map (acc.insert k)) ∅

theorem collectM_perm (h : order.Perm order') (f : String → Option V) : collectM order f = collectM order' f := by
  apply foldlM_perm _ h
  intro acc a b
  cases ha : f a with
  | none => cases f b <;> rfl
  | some x =>
    cases hb : f b with
    | none => rfl
    | some y =>
      have := insert_comm (f := fun k => (f k).getD x) acc a b
      simp only [ha, hb] at this
      exact congrArg some this

end GoMap

end NpsSdk
