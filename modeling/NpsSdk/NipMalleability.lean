import NpsSdk.NipVerifier

/-! Changes to the part of a frame that is not signed. Whether the certificate chain and the staple are
looked at at all is decided by the `cert_format` member, which is not signed itself: a frame whose chain is
rejected is accepted without it. -/

namespace NpsSdk.Nip

section

variable {N : Type} {pf : Platform N} {env : VerifierEnv} {v : NipIdentVerifier pf}
  {frame : IdentFrame N} {vctx : VerifyContext}

def VerifyContext.now (vctx : VerifyContext) (env : VerifierEnv) : Time :=
  if vctx.asOf = 0 then env.clock else vctx.asOf

variable (env v frame vctx) in
/-- The frame has a chain that the verifier accepts, attested claims and a fresh staple. -/
def GenuineChain : Prop :=
  frame.isV2 = true ∧
    (∃ x509Verifier, v.x509Verifier = some x509Verifier ∧
      (x509Verifier (frame.certChain.getD []) frame.nid frame.assuranceLevel
        v.options.trustedX509Roots).valid = true) ∧
    (enforcePhase3 env v.options frame (vctx.now env)).valid = true

variable (env v frame vctx) in
/-- Other values outside of what is signed are accepted only with a genuine chain. -/
def NonMalleable : Prop :=
  ∀ certFormat certChain ocspStaple nodeRoles,
    (v.verifyFull env (frame.withUnsigned certFormat certChain ocspStaple nodeRoles) vctx).valid = true →
      GenuineChain env v (frame.withUnsigned certFormat certChain ocspStaple nodeRoles) vctx

variable (env v frame vctx) in
/-- The frame is rejected whatever stands outside of what is signed, as long as it does not claim a chain. -/
def SignedPartRejected : Prop :=
  (checkExpiry (vctx.now env) frame).valid = false ∨
    (checkIssuer pf v.options frame).valid = false ∨
    LocalCrlHit v.options frame ∨ StoreRevoked v.options frame ∨ StoreFailed v.options frame ∨
    OcspRejects env v.options frame ∨ SourceMissing v.options ∨
    (checkCapabilities vctx.requiredCapabilities frame).valid = false ∨
    (checkTarget pf vctx.targetNodePath frame).valid = false ∨
    ∀ certFormat certChain ocspStaple nodeRoles, certFormat ≠ some certFormatV2X509 →
      CallbackRejects v.options (frame.withUnsigned certFormat certChain ocspStaple nodeRoles)

/-- Without the claim of a chain there is nothing to check about one. -/
theorem checkChain_of_not_isV2 (h : frame.isV2 = false) (now : Time) : checkChain env v frame now = passed := by
  unfold checkChain
  cases v.x509Verifier with
  | none => rfl
  | some =>
    dsimp only
    rw [if_neg]
    rintro ⟨-, hv2⟩
    rw [h] at hv2
    cases hv2

theorem genuineChain_of_checkChain {x509Verifier : X509ChainVerifier pf}
    (hroots : v.options.trustedX509Roots ≠ []) (hx509 : v.x509Verifier = some x509Verifier)
    (hphase3 : v.options.phase3Enforcement = true) (hv2 : frame.isV2 = true)
    (h : (checkChain env v frame (vctx.now env)).valid = true) : GenuineChain env v frame vctx := by
  unfold checkChain at h
  rw [hx509] at h
  dsimp only at h
  rw [if_pos ⟨hroots, hv2⟩] at h
  by_cases hvalid : (x509Verifier (frame.certChain.getD []) frame.nid frame.assuranceLevel
      v.options.trustedX509Roots).valid = true
  · rw [if_pos hvalid, if_pos hphase3] at h
    exact ⟨hv2, ⟨x509Verifier, hx509, hvalid⟩, h⟩
  · rw [if_neg hvalid] at h
    cases h

/-- What of the checks does not depend on the part that is not signed. -/
theorem verifyFull_withUnsigned_iff (certFormat : Option GoString) (certChain : Option (List GoString))
    (ocspStaple : GoString) (nodeRoles : Option (List GoString)) :
    (v.verifyFull env (frame.withUnsigned certFormat certChain ocspStaple nodeRoles) vctx).valid = true ↔
      ((checkExpiry (vctx.now env) frame).valid = true ∧ (checkIssuer pf v.options frame).valid = true ∧
        ¬LocalCrlHit v.options frame ∧ ¬StoreRevoked v.options frame ∧ ¬StoreFailed v.options frame ∧
        ¬OcspRejects env v.options frame ∧ ¬SourceMissing v.options ∧
        (checkCapabilities vctx.requiredCapabilities frame).valid = true ∧
        (checkTarget pf vctx.targetNodePath frame).valid = true) ∧
      (checkChain env v (frame.withUnsigned certFormat certChain ocspStaple nodeRoles) (vctx.now env)).valid = true ∧
      ¬CallbackRejects v.options (frame.withUnsigned certFormat certChain ocspStaple nodeRoles) := by
  rw [verifyFull_valid_iff, checkRevocation_valid_iff]
  constructor
  · rintro ⟨hexpiry, hissuer, hchain, ⟨hlocal, hcallback, hstore, hocsp, hsource⟩, hcaps, htarget⟩
    exact ⟨⟨hexpiry, hissuer, hlocal, fun h => hstore (Or.inl h), fun h => hstore (Or.inr h), hocsp,
      hsource, hcaps, htarget⟩, hchain, hcallback⟩
  · rintro ⟨⟨hexpiry, hissuer, hlocal, hrevoked, hfailed, hocsp, hsource, hcaps, htarget⟩, hchain, hcallback⟩
    exact ⟨hexpiry, hissuer, hchain, ⟨hlocal, hcallback, fun h => h.elim hrevoked hfailed, hocsp,
      hsource⟩, hcaps, htarget⟩

/-- A verifier with roots and full enforcement is protected against changes outside of what is signed
exactly if the frame is rejected for what is signed. -/
theorem nonMalleable_iff {x509Verifier : X509ChainVerifier pf}
    (hroots : v.options.trustedX509Roots ≠ []) (hx509 : v.x509Verifier = some x509Verifier)
    (hphase3 : v.options.phase3Enforcement = true) :
    NonMalleable env v frame vctx ↔ SignedPartRejected env v frame vctx := by
  constructor
  · intro hsafe
    by_contra hpart
    simp only [SignedPartRejected, not_or, Bool.not_eq_false, not_forall] at hpart
    obtain ⟨hexpiry, hissuer, hlocal, hrevoked, hfailed, hocsp, hsource, hcaps, htarget, format, chain,
      staple, roles, hformat, hcallback⟩ := hpart
    have hnot : (frame.withUnsigned format chain staple roles).isV2 = false := decide_eq_false hformat
    have hgenuine := hsafe format chain staple roles <| by
      rw [verifyFull_withUnsigned_iff, checkChain_of_not_isV2 hnot]
      exact ⟨⟨hexpiry, hissuer, hlocal, hrevoked, hfailed, hocsp, hsource, hcaps, htarget⟩, rfl, hcallback⟩
    rw [hgenuine.1] at hnot
    cases hnot
  · intro hpart format chain staple roles haccepted
    rw [verifyFull_withUnsigned_iff] at haccepted
    obtain ⟨⟨hexpiry, hissuer, hlocal, hrevoked, hfailed, hocsp, hsource, hcaps, htarget⟩, hchain,
      hcallback⟩ := haccepted
    by_cases hformat : format = some certFormatV2X509
    · exact genuineChain_of_checkChain hroots hx509 hphase3 (decide_eq_true hformat) hchain
    exfalso
    rcases hpart with h | h | h | h | h | h | h | h | h | h
    · rw [h] at hexpiry
      cases hexpiry
    · rw [h] at hissuer
      cases hissuer
    · exact hlocal h
    · exact hrevoked h
    · exact hfailed h
    · exact hocsp h
    · exact hsource h
    · rw [h] at hcaps
      cases hcaps
    · rw [h] at htarget
      cases htarget
    · exact hcallback (h format chain staple roles hformat)

end

def noChainVerifier : NipIdentVerifier (plainPlatform anySignature) where
  options :=
    { trustedCaPublicKeys := fun _ => some (encodeKeyText (List.replicate 32 0))
      trustedX509Roots := [([] : Bytes)]
      phase3Enforcement := true }
  x509Verifier := some fun _ _ _ _ => { valid := false }

def badChainFrame : IdentFrame JsonNumber :=
  { nid := "urn:nps:agent:ca.example.com:a"
    pubKey := "ed25519:AA"
    signature := some (encodeKeyText [])
    issuedBy := "urn:nps:org:ca.example.com"
    expiresAt := "2999-01-01T00:00:00Z"
    certFormat := some certFormatV2X509
    certChain := some ["AA"] }

def quietEnv : VerifierEnv where
  clock := 1
  ocsp _ := .transportError []

/-- An expired frame is protected. -/
theorem nonMalleable_of_expired : NonMalleable quietEnv noChainVerifier { badChainFrame with expiresAt := [] } {} :=
  (nonMalleable_iff (by decide) rfl rfl).mpr (Or.inl (by decide +kernel))

/-- A frame whose chain is rejected is accepted once `cert_format` and the chain are taken out. -/
theorem stripped_chain_accepted : (noChainVerifier.verifyFull quietEnv badChainFrame {}).valid = false ∧
      (noChainVerifier.verifyFull quietEnv (badChainFrame.withUnsigned none none [] none) {}).valid = true ∧
      ¬GenuineChain quietEnv noChainVerifier (badChainFrame.withUnsigned none none [] none) {} := by
  refine ⟨by decide +kernel, by decide +kernel, ?_⟩
  rintro ⟨hv2, -⟩
  exact absurd hv2 (by decide)

end NpsSdk.Nip
