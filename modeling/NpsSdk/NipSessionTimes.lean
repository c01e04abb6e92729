import NpsSdk.NipAttenuation

/-! The times in a signed request for a session. When it was signed is compared with the clock, and how long the
session is to live is turned into nanoseconds, both in 64 bits. -/

namespace NpsSdk.Nip

open Int64

/-- The smallest integer is its own opposite. -/
def absInt64 (v : Int64) : Int64 := if v < 0 then -v else v

theorem toInt_absInt64 (v : Int64) : (absInt64 v).toInt = if v.toInt = -2 ^ 63 then -2 ^ 63 else |v.toInt| := by
  have hlow := le_toInt v
  rw [absInt64, abs_eq_max_neg]
  by_cases hneg : v < 0
  · rw [if_pos hneg, toInt_neg, Int.bmod_def]
    rw [lt_iff_toInt_lt, toInt_zero] at hneg
    split_ifs <;> omega
  · rw [if_neg hneg]
    rw [lt_iff_toInt_lt, toInt_zero] at hneg
    split_ifs <;> omega

/-- Only differences from below come out of range, since the clock is not before the epoch. -/
theorem toInt_sub_of_nonneg {now iat : Int64} (hnow : 0 ≤ now.toInt) : (now - iat).toInt =
    if now.toInt - iat.toInt < 2 ^ 63 then now.toInt - iat.toInt else now.toInt - iat.toInt - 2 ^ 64 := by
  have hlow := le_toInt iat
  have hhigh := toInt_lt iat
  have hbound := toInt_lt now
  rw [toInt_sub, Int.bmod_def]
  split_ifs <;> omega

def requestedValidity (validitySeconds : Int64) : Duration :=
  if 0 < validitySeconds then (validitySeconds.toInt * GoTime.second).bmod (2 ^ 64) else 0

section

variable {N : Type} {pf : Platform N} {σ : Type} (ca : NipCaService pf σ)

/-- `handleIssueSession` for a payload whose signature is good; none where the request is too old or too new. -/
def issueSignedSession (s : σ) (draw : NipCaService.SessionDraw) (groupNid sessionPubKey : GoString)
    (p : NipCaService.IssueSessionParams) (skew now iat validitySeconds : Int64) :
    Option (σ × Except CaError (IdentFrame N)) :=
  if iat = 0 ∨ absInt64 (now - iat) > skew then none
  else some (ca.issueSession s draw groupNid sessionPubKey { p with validity := requestedValidity validitySeconds })

/-- The session that a request asks for lives as long as it says. -/
def intendedValidity (validitySeconds : Int64) : Duration :=
  if 0 < validitySeconds then validitySeconds.toInt * GoTime.second else ca.opts.sessionDefaultValidity

theorem wrapped_eq_iff {x d : Int} (hx : 0 < x) (hd : d < 2 ^ 63) :
    (if x.bmod (2 ^ 64) = 0 then d else x.bmod (2 ^ 64)) = x ↔ x < 2 ^ 63 := by
  rw [Int.bmod_def]
  split_ifs <;> omega

theorem sessionValidity_eq_iff {p : NipCaService.IssueSessionParams} {validitySeconds : Int64}
    (hdefault : ca.opts.sessionDefaultValidity < 2 ^ 63) :
    ca.sessionValidity { p with validity := requestedValidity validitySeconds } = intendedValidity ca validitySeconds ↔
      validitySeconds.toInt * 10 ^ 9 < 2 ^ 63 := by
  rw [intendedValidity, requestedValidity]
  have hpositive : 0 < validitySeconds ↔ 0 < validitySeconds.toInt := lt_iff_toInt_lt
  by_cases h : 0 < validitySeconds
  · rw [if_pos h, if_pos h]
    exact wrapped_eq_iff (Int.mul_pos (hpositive.mp h) (by decide)) hdefault
  rw [if_neg h, if_neg h]
  rw [hpositive] at h
  exact iff_of_true rfl (by omega)

/-- A request is let through exactly if it was signed close to the clock, unless the difference of the two does not
fit in 64 bits and comes out small. A session that is issued lives within the bounds, and as long as the request
says exactly if that many nanoseconds fit in 64 bits. -/
theorem session_times_iff {s : σ} {draw : NipCaService.SessionDraw} {groupNid sessionPubKey : GoString}
    {p : NipCaService.IssueSessionParams} {skew now iat validitySeconds : Int64} (hnow : 0 ≤ now.toInt)
    (hdefault : ca.opts.sessionDefaultValidity < 2 ^ 63) :
    let result := issueSignedSession ca s draw groupNid sessionPubKey p skew now iat validitySeconds
    let lifetime := ca.sessionValidity { p with validity := requestedValidity validitySeconds }
    ((result.isSome ↔ iat ≠ 0 ∧ |now.toInt - iat.toInt| ≤ skew.toInt) ↔
        now.toInt - iat.toInt < 2 ^ 63 ∨
          (now.toInt - iat.toInt ≠ 2 ^ 63 ∧ skew.toInt < 2 ^ 64 - (now.toInt - iat.toInt))) ∧
      ∀ s' frame, result = some (s', .ok frame) →
        frame.issuedAt = GoTime.isoTime draw.issuedAt ∧ frame.expiresAt = GoTime.isoTime (draw.issuedAt + lifetime) ∧
          (ca.opts.sessionMinValidity ≤ lifetime ∧ lifetime ≤ ca.opts.sessionMaxValidity) ∧
          (lifetime = intendedValidity ca validitySeconds ↔ validitySeconds.toInt * 10 ^ 9 < 2 ^ 63) := by
  intro result lifetime
  have hpassed : result.isSome ↔ iat ≠ 0 ∧ (absInt64 (now - iat)).toInt ≤ skew.toInt := by
    dsimp only [result, issueSignedSession]
    rw [← not_lt, ← lt_iff_toInt_lt, ← not_or]
    split_ifs with hrefused <;> simp [hrefused]
  refine ⟨?_, fun s' frame hissued => ?_⟩
  · have hiat : now.toInt - iat.toInt ≥ 2 ^ 63 → iat ≠ 0 := by
      rintro hfar rfl
      exact absurd hfar (not_le_of_gt (by simpa using toInt_lt now))
    have hlow := le_toInt skew
    have hhigh := toInt_lt skew
    rw [hpassed, toInt_absInt64, toInt_sub_of_nonneg hnow]
    simp only [abs_eq_max_neg]
    by_cases hnear : now.toInt - iat.toInt < 2 ^ 63
    · rw [if_pos hnear, if_neg (by have := toInt_lt iat; omega)]
      exact iff_of_true Iff.rfl (.inl hnear)
    rw [and_iff_right (hiat (not_lt.mp hnear))]
    have hbound := le_toInt iat
    have hclock := toInt_lt now
    split_ifs <;> omega
  · dsimp only [result, issueSignedSession, NipCaService.issueSession] at hissued
    split_ifs at hissued
    cases hgroup : ca.store.lookup s groupNid with
    | none =>
      rw [hgroup] at hissued
      cases hissued
    | some group =>
      rw [hgroup] at hissued
      dsimp only at hissued
      split at hissued
      · cases hissued
      rename_i hcheck
      obtain ⟨serial, s₁, draft, -, hdraft, hframe, -⟩ := issue_ok ca (Option.some.inj hissued)
      cases hframe
      obtain ⟨scope, metadata, -, -, hframe⟩ := issueFrame_spec ca hdraft
      rw [hframe]
      obtain ⟨-, -, -, hbounds, -⟩ := (NipCaService.checkSession_eq_none_iff _).mp hcheck
      exact ⟨rfl, rfl, hbounds, sessionValidity_eq_iff ca hdefault⟩

end

def sessionAt (iat validitySeconds : Int64) :=
  issueSignedSession (exampleCa anySignature ()) { records := [narrowGroup] } firstDraw narrowGroup.nid "ed25519:AA" {}
    300 1700000000 iat validitySeconds

theorem fresh_request_passes : (sessionAt 1700000000 3600).isSome :=
  ((session_times_iff (exampleCa anySignature ()) (by decide) (by decide)).1.mpr (.inl (by decide))).mpr
    ⟨by decide, by decide⟩

/-- A request from before the universe, for five centuries, is granted and gets a minute. -/
theorem ancient_request_granted : (300 : Int) < |1700000000 - (1700000000 - 2 ^ 63)| ∧
      (sessionAt (-9223372035154775808) 18446744134).any (fun result => result.2.toOption.any fun frame =>
        frame.expiresAt = GoTime.isoTime 60290448384) = true :=
  ⟨by decide, by decide +kernel⟩

end NpsSdk.Nip
