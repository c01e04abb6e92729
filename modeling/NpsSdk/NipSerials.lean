import NpsSdk.NipCaStore
import NpsSdk.Transition

/-! Serials that several calls draw from one database. A call increments the counter in one statement and reads
it in the next, and reads whatever the calls in between have left there. -/

namespace NpsSdk.Nip

open Transition List

def upperHexValue (c : Char) : Nat := c.toNat - if c.isDigit then 48 else 55

theorem upperHexValue_digitChar : ∀ d < 16, upperHexValue (Nat.digitChar d).toUpper = d := by decide

theorem foldl_upperHexValue (n : Nat) :
    ((Nat.toDigits 16 n).map Char.toUpper).foldl (fun v c => 16 * v + upperHexValue c) 0 = n := by
  induction n using Nat.strongRecOn with
  | ind n ih =>
    by_cases hsmall : n < 16
    · rw [Nat.toDigits_of_lt_base hsmall, map_singleton, foldl_cons, foldl_nil,
        upperHexValue_digitChar n hsmall, Nat.zero_add]
    rw [Nat.toDigits_of_base_le (by decide) (Nat.not_lt.mp hsmall), map_append, foldl_append,
      ih (n / 16) (by omega), map_singleton, foldl_cons, foldl_nil,
      upperHexValue_digitChar _ (Nat.mod_lt n (by decide)), Nat.div_add_mod]

theorem serialText_injective : Function.Injective serialText := by
  intro n m h
  have hdigits := tail_eq_of_cons_eq (tail_eq_of_cons_eq (GoString.ofChars_injective h))
  calc
    n = ((Nat.toDigits 16 n).map Char.toUpper).foldl (fun v c => 16 * v + upperHexValue c) 0 :=
      (foldl_upperHexValue n).symm
    _ = ((Nat.toDigits 16 m).map Char.toUpper).foldl (fun v c => 16 * v + upperHexValue c) 0 := by rw [hdigits]
    _ = m := foldl_upperHexValue m

namespace Serials

inductive Stage where
  | start
  | incremented
  | returned
  deriving DecidableEq

structure State (ι : Type) where
  store : SqlNipCaStore
  stage : ι → Stage
  serials : List GoString

inductive Event (ι : Type) where
  | exec (caller : ι) (ok : Bool)
  | query (caller : ι) (ok : Bool)

variable {ι : Type}

def Event.ok : Event ι → Bool
  | .exec _ ok | .query _ ok => ok

def Event.isQuery : Event ι → Bool
  | .exec _ _ => false
  | .query _ _ => true

/-- Between any two readings of the counter it is incremented. -/
def Separated (events : List (Event ι)) : Prop :=
  (events.filter Event.ok).IsChain fun e e' => ¬ (e.isQuery ∧ e'.isQuery)

instance (events : List (Event ι)) : Decidable (Separated events) := inferInstanceAs (Decidable (List.IsChain _ _))

def readings : Nat → List (Event ι) → List Nat
  | _, [] => []
  | seq, .exec _ true :: events => readings (seq + 1) events
  | seq, .query _ true :: events => seq :: readings seq events
  | seq, .exec _ false :: events | seq, .query _ false :: events => readings seq events

theorem le_of_mem_readings {seq n : Nat} {events : List (Event ι)} (h : n ∈ readings seq events) : seq ≤ n := by
  fun_induction readings seq events with
  | case1 => cases h
  | case2 seq _ _ ih => exact Nat.le_of_succ_le (ih h)
  | case3 seq _ _ ih =>
    rcases mem_cons.mp h with rfl | h
    · exact le_rfl
    · exact ih h
  | case4 _ _ _ ih | case5 _ _ _ ih => exact ih h

/-- A value is read again exactly if the next statement that is executed reads. -/
theorem not_mem_readings_iff (seq : Nat) (events : List (Event ι)) :
    seq ∉ readings seq events ↔ ∀ e ∈ (events.filter Event.ok).head?, e.isQuery = false := by
  fun_induction readings seq events with
  | case1 => simp
  | case2 => simpa [Event.ok, Event.isQuery] using fun h => absurd (le_of_mem_readings h) (by omega)
  | case3 => simp [Event.ok, Event.isQuery]
  | case4 _ _ _ ih | case5 _ _ _ ih => simpa [Event.ok] using ih

theorem nodup_readings_iff (seq : Nat) (events : List (Event ι)) :
    (readings seq events).Nodup ↔ Separated events := by
  fun_induction readings seq events with
  | case1 => exact ⟨fun _ => .nil, fun _ => .nil⟩
  | case2 seq i events ih =>
    rw [ih, Separated, Separated, filter_cons_of_pos rfl, isChain_cons]
    exact (and_iff_right fun e _ h => by cases h.1).symm
  | case3 seq i events ih =>
    rw [nodup_cons, ih, not_mem_readings_iff, Separated, Separated, filter_cons_of_pos rfl, isChain_cons]
    simp [Event.isQuery]
  | case4 _ _ _ ih | case5 _ _ _ ih => exact ih

variable [DecidableEq ι]

def step (s : State ι) : Event ι → Option (State ι)
  | .exec i ok =>
    if s.stage i = .start then some (match ok with
      | true => ⟨{ s.store with seq := s.store.seq + 1 }, Function.update s.stage i .incremented, s.serials⟩
      | false => { s with stage := Function.update s.stage i .returned })
    else none
  | .query i ok =>
    if s.stage i = .incremented then some (match ok with
      | true => ⟨s.store, Function.update s.stage i .returned, s.serials ++ [serialText s.store.seq]⟩
      | false => { s with stage := Function.update s.stage i .returned })
    else none

theorem run_alone (s : State ι) {i : ι} (h : s.stage i = .start) :
    (run step s [.exec i true, .query i true]).map (fun t => (t.serials, t.store)) =
      some (s.serials ++ [s.store.nextSerial.1], s.store.nextSerial.2) := by
  simp [run, step, h, SqlNipCaStore.nextSerial]

theorem serials_run {s t : State ι} {events : List (Event ι)} (h : run step s events = some t) :
    t.serials = s.serials ++ (readings s.store.seq events).map serialText := by
  induction events generalizing s with
  | nil =>
    cases h
    exact (append_nil _).symm
  | cons event events ih =>
    obtain ⟨s', hs', hrest⟩ := run_cons step s t event events h
    rw [ih hrest]
    cases event with
    | exec i ok | query i ok =>
      simp only [step] at hs'
      split_ifs at hs'
      cases ok <;> cases hs' <;> simp [readings]

/-- Calls draw different serials exactly if the counter is incremented between any two readings of it. -/
theorem serials_distinct_iff {s t : State ι} {events : List (Event ι)} (hstart : s.serials = [])
    (hrun : run step s events = some t) : t.serials.Nodup ↔ Separated events := by
  rw [serials_run hrun, hstart, nil_append, nodup_map_iff serialText_injective, nodup_readings_iff]

def fresh : State Bool := ⟨⟨[], 0⟩, fun _ => .start, []⟩

def consecutive : List (Event Bool) := [.exec false true, .query false true, .exec true true, .query true true]

theorem consecutive_serials_distinct : ∃ t, run step fresh consecutive = some t ∧ t.serials.Nodup := by
  obtain ⟨t, ht⟩ : ∃ t, run step fresh consecutive = some t := ⟨_, rfl⟩
  exact ⟨t, ht, (serials_distinct_iff rfl ht).mpr (by decide)⟩

/-- Two calls that both increment the counter before either reads it. -/
theorem interleaved_serials_equal :
    (run step fresh [.exec false true, .exec true true, .query false true, .query true true]).map
      (·.serials) = some [serialText 2, serialText 2] := rfl

end Serials

end NpsSdk.Nip
