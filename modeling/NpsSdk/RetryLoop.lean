import Mathlib

/-! Loops that try again. In each round something is tried at a target that is found anew; the loop goes on
after a failure that calls for another round, up to a number of rounds, and ends with the result of the
last one. -/

namespace NpsSdk

/-- One round: it was tried at a target, or ended before anything was tried. -/
inductive Round (A S E : Type) where
  | tried (target : A) (outcome : Except E S)
  | halted (e : E)

namespace Round

variable {A S E : Type}

def result : Round A S E → Except E S
  | .tried _ outcome => outcome
  | .halted e => .error e

/-- The round failed in a way that calls for another one. -/
def retriable (retry : E → Bool) : Round A S E → Bool
  | .tried _ (.error e) => retry e
  | _ => false

theorem retriable_mono {retry retry' : E → Bool} (hle : ∀ e, retry e = true → retry' e = true)
    {r : Round A S E} (h : r.retriable retry = true) : r.retriable retry' = true := by
  match r, h with
  | .tried _ (.error e), h => exact hle e h

end Round

section

variable {A S E : Type} (retry : E → Bool)

/-- The rounds that took place and the result, with a number of rounds left after the first. -/
def retryLoop (rounds : Nat → Round A S E) : Nat → List (Round A S E) × Except E S
  | 0 => ([rounds 0], (rounds 0).result)
  | n + 1 =>
    if (rounds 0).retriable retry then
      let later := retryLoop (fun i => rounds (i + 1)) n
      (rounds 0 :: later.1, later.2)
    else ([rounds 0], (rounds 0).result)

/-- The rounds up to a last one took place, all but it call for another, and it is the last because it
does not or because there is none left. -/
structure StopsAt (rounds : Nat → Round A S E) (n k : Nat) : Prop where
  le : k ≤ n
  earlier : ∀ i < k, (rounds i).retriable retry = true
  last : k < n → (rounds k).retriable retry = false

/-- What a loop should do: its rounds, in order and none left out, and the result of the last. -/
def Follows (rounds : Nat → Round A S E) (n : Nat) (t : List (Round A S E) × Except E S) : Prop :=
  ∃ k, StopsAt retry rounds n k ∧ t = ((List.range (k + 1)).map rounds, (rounds k).result)

variable {retry} {rounds : Nat → Round A S E} {n : Nat}

theorem StopsAt.unique {k k' : Nat} (h : StopsAt retry rounds n k) (h' : StopsAt retry rounds n k') : k = k' := by
  rcases Nat.lt_trichotomy k k' with hlt | heq | hlt
  · have hgo := h'.earlier k hlt
    rw [h.last (hlt.trans_le h'.le)] at hgo
    cases hgo
  · exact heq
  · have hgo := h.earlier k' hlt
    rw [h'.last (hlt.trans_le h.le)] at hgo
    cases hgo

theorem StopsAt.succ {k : Nat} (hfirst : (rounds 0).retriable retry = true)
    (h : StopsAt retry (fun i => rounds (i + 1)) n k) : StopsAt retry rounds (n + 1) (k + 1) where
  le := Nat.succ_le_succ h.le
  earlier i hi := by
    cases i with
    | zero => exact hfirst
    | succ i => exact h.earlier i (Nat.lt_of_succ_lt_succ hi)
  last hk := h.last (Nat.lt_of_succ_lt_succ hk)

/-- The loop does what it should. -/
theorem follows_retryLoop (rounds : Nat → Round A S E) (n : Nat) :
    Follows retry rounds n (retryLoop retry rounds n) := by
  induction n generalizing rounds with
  | zero => exact ⟨0, ⟨Nat.le_refl _, nofun, nofun⟩, rfl⟩
  | succ n ih =>
    rw [retryLoop]
    split_ifs with hfirst
    · obtain ⟨k, hstops, hlog⟩ := ih fun i => rounds (i + 1)
      refine ⟨k + 1, hstops.succ hfirst, ?_⟩
      rw [hlog, List.range_succ_eq_map (n := k + 1), List.map_cons, List.map_map]
      rfl
    · exact ⟨0, ⟨Nat.zero_le _, nofun, fun _ => Bool.eq_false_iff.mpr hfirst⟩, rfl⟩

/-- A loop with a narrower notion of failures that call for another round does what the wider notion asks
exactly if it never stops short of it. -/
theorem follows_retryLoop_iff {retry' : E → Bool} (hle : ∀ e, retry e = true → retry' e = true) :
    Follows retry' rounds n (retryLoop retry rounds n) ↔
      ∀ k < n, (∀ i < k, (rounds i).retriable retry = true) → (rounds k).retriable retry' = true →
        (rounds k).retriable retry = true := by
  have hfollows : Follows retry rounds n (retryLoop retry rounds n) := follows_retryLoop rounds n
  obtain ⟨k, hstops, hlog⟩ := hfollows
  constructor
  · rintro ⟨k', hstops', hlog'⟩
    -- both logs are the same, so both loops stop at the same round
    have hlength : k = k' := by
      have h := congrArg (fun t => t.1.length) (hlog.symm.trans hlog')
      simpa using h
    subst hlength
    intro i hi hearlier hwide
    by_contra hnarrow
    rw [Bool.not_eq_true] at hnarrow
    have hik : i = k := StopsAt.unique ⟨hi.le, hearlier, fun _ => hnarrow⟩ hstops
    subst hik
    rw [hstops'.last hi] at hwide
    cases hwide
  · intro hnever
    refine ⟨k, ⟨hstops.le, fun i hi => Round.retriable_mono hle (hstops.earlier i hi), fun hk => ?_⟩, hlog⟩
    by_contra hwide
    rw [Bool.not_eq_false] at hwide
    have hgo := hnever k hk hstops.earlier hwide
    rw [hstops.last hk] at hgo
    cases hgo

end

end NpsSdk
