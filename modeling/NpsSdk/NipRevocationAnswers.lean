import NpsSdk.NipVerifier

/-! Negative answers about a certificate. A local list, a callback or a store that reports the certificate
ends the verification. An OCSP answer is first turned into an error code, and every code but that of a
revoked certificate is then taken for an endpoint that could not be reached, which a verifier that fails
open forgives. -/

namespace NpsSdk.Nip

section

variable {N : Type} {pf : Platform N} {env : VerifierEnv} {v : NipIdentVerifier pf}
  {o : VerifierOptions pf} {frame : IdentFrame N} {vctx : VerifyContext}

variable (env o frame) in
def OcspAnswers (payload : OcspPayload) : Prop :=
  o.ocspURL ≠ [] ∧ ∃ status body, env.ocsp (ocspEndpoint o.ocspURL frame.nid) = .response status (.ok body) ∧
    ¬(status < 200 ∨ 300 ≤ status) ∧ decodeOcspPayload pf body = some payload

variable (env o frame) in
/-- A configured source says that the certificate is not valid. -/
def NegativeAnswer : Prop :=
  LocalCrlHit o frame ∨ CallbackRejects o frame ∨ StoreRevoked o frame ∨
    ∃ payload, OcspAnswers env o frame payload ∧ payload.valid = false

variable (env o frame) in
def TransportFailure : Prop :=
  match env.ocsp (ocspEndpoint o.ocspURL frame.nid) with
  | .requestError _ | .transportError _ => True
  | .response status body => ¬(status < 200 ∨ 300 ≤ status) ∧ ∃ err, body = .error err

variable (env v frame vctx) in
/-- No negative answer is overridden, and an OCSP check that fails is forgiven only if no answer came
through. -/
def NeverOverridden : Prop :=
  (NegativeAnswer env v.options frame → (v.verifyFull env frame vctx).valid = false) ∧
    (v.options.ocspURL ≠ [] → (ocspCheck pf env v.options frame.nid).valid = false →
      ¬TransportFailure env v.options frame → (v.verifyFull env frame vctx).valid = false)

variable (env o frame) in
/-- The endpoint answers, but neither that the certificate is valid nor that it is revoked. -/
def OddAnswer : Prop :=
  o.ocspURL ≠ [] ∧ ∃ status body, env.ocsp (ocspEndpoint o.ocspURL frame.nid) = .response status body ∧
    ((status < 200 ∨ 300 ≤ status) ∨
      ∃ text, body = .ok text ∧
        (decodeOcspPayload pf text = none ∨
          ∃ payload, decodeOcspPayload pf text = some payload ∧ payload.valid = false ∧
            payload.errorCode ≠ [] ∧ payload.errorCode ≠ errCertRevoked))

variable (env v frame vctx) in
def RejectedElsewhere : Prop :=
  (checkExpiry (if vctx.asOf = 0 then env.clock else vctx.asOf) frame).valid = false ∨
    (checkIssuer pf v.options frame).valid = false ∨
    (checkChain env v frame (if vctx.asOf = 0 then env.clock else vctx.asOf)).valid = false ∨
    LocalCrlHit v.options frame ∨ CallbackRejects v.options frame ∨ StoreRevoked v.options frame ∨
    StoreFailed v.options frame ∨
    (checkCapabilities vctx.requiredCapabilities frame).valid = false ∨
    (checkTarget pf vctx.targetNodePath frame).valid = false

theorem errOcspUnavailable_ne : errOcspUnavailable ≠ errCertRevoked := by decide

/-- A check that fails comes from a failure of transport, a report of revocation or an odd answer. -/
theorem ocspCheck_cases (hurl : o.ocspURL ≠ []) (h : (ocspCheck pf env o frame.nid).valid = false) :
    TransportFailure env o frame ∨ (ocspCheck pf env o frame.nid).errorCode = errCertRevoked ∨
      OddAnswer env o frame := by
  unfold ocspCheck at h ⊢
  unfold TransportFailure
  cases hreply : env.ocsp (ocspEndpoint o.ocspURL frame.nid) with
  | requestError | transportError => exact .inl trivial
  | response status body =>
    rw [hreply] at h
    dsimp only at h ⊢
    by_cases hstatus : status < 200 ∨ 300 ≤ status
    · exact .inr (.inr ⟨hurl, status, body, hreply, .inl hstatus⟩)
    rw [if_neg hstatus] at h ⊢
    cases body with
    | error err => exact .inl ⟨hstatus, err, rfl⟩
    | ok text =>
      dsimp only at h ⊢
      cases hdecoded : decodeOcspPayload pf text with
      | none => exact .inr (.inr ⟨hurl, status, _, hreply, .inr ⟨text, rfl, .inl hdecoded⟩⟩)
      | some payload =>
        rw [hdecoded] at h
        dsimp only at h ⊢
        cases hvalid : payload.valid with
        | true =>
          rw [hvalid] at h
          cases h
        | false =>
          by_cases hempty : payload.errorCode = []
          · exact .inr (.inl (if_pos hempty))
          by_cases hcode : payload.errorCode = errCertRevoked
          · exact .inr (.inl ((if_neg hempty).trans hcode))
          · exact .inr (.inr ⟨hurl, status, _, hreply,
              .inr ⟨text, rfl, .inr ⟨payload, hdecoded, hvalid, hempty, hcode⟩⟩⟩)

theorem ocspCheck_of_oddAnswer (h : OddAnswer env o frame) : (ocspCheck pf env o frame.nid).valid = false ∧
      (ocspCheck pf env o frame.nid).errorCode ≠ errCertRevoked ∧ ¬TransportFailure env o frame := by
  obtain ⟨-, status, body, hreply, hodd⟩ := h
  unfold ocspCheck TransportFailure
  rw [hreply]
  dsimp only
  by_cases hstatus : status < 200 ∨ 300 ≤ status
  · rw [if_pos hstatus]
    exact ⟨rfl, errOcspUnavailable_ne, fun hfailure => hfailure.1 hstatus⟩
  obtain ⟨text, rfl, hdecoded⟩ := hodd.resolve_left hstatus
  rw [if_neg hstatus]
  dsimp only
  have hanswered : ¬(¬(status < 200 ∨ 300 ≤ status) ∧
      ∃ err, (Except.ok text : Except GoString GoString) = .error err) := by
    rintro ⟨-, err, herr⟩
    cases herr
  rcases hdecoded with hnone | ⟨payload, hsome, hvalid, hempty, hcode⟩
  · rw [hnone]
    exact ⟨rfl, errOcspUnavailable_ne, hanswered⟩
  rw [hsome]
  dsimp only
  rw [hvalid]
  refine ⟨rfl, ?_, hanswered⟩
  rwa [if_neg hempty]

theorem ocspCheck_of_answer {payload : OcspPayload} (h : OcspAnswers env o frame payload)
    (hvalid : payload.valid = false) :
    (ocspCheck pf env o frame.nid).valid = false ∧ ¬TransportFailure env o frame := by
  obtain ⟨-, status, body, hreply, hstatus, hdecoded⟩ := h
  unfold ocspCheck TransportFailure
  rw [hreply]
  dsimp only
  rw [if_neg hstatus, hdecoded]
  dsimp only
  rw [hvalid]
  refine ⟨rfl, ?_⟩
  rintro ⟨-, err, herr⟩
  cases herr

/-- A rejection by another check stays a rejection. -/
theorem verifyFull_of_rejectedElsewhere (h : RejectedElsewhere env v frame vctx) :
    (v.verifyFull env frame vctx).valid = false := by
  rw [← Bool.not_eq_true, verifyFull_valid_iff, checkRevocation_valid_iff]
  rintro ⟨hexpiry, hissuer, hchain, ⟨hlocal, hcallback, hstore, -, -⟩, hcaps, htarget⟩
  rcases h with h | h | h | h | h | h | h | h | h
  · rw [h] at hexpiry
    cases hexpiry
  · rw [h] at hissuer
    cases hissuer
  · rw [h] at hchain
    cases hchain
  · exact hlocal h
  · exact hcallback h
  · exact hstore (.inl h)
  · exact hstore (.inr h)
  · rw [h] at hcaps
    cases hcaps
  · rw [h] at htarget
    cases htarget

theorem verifyFull_of_ocspRejects (h : OcspRejects env v.options frame) :
    (v.verifyFull env frame vctx).valid = false := by
  rw [← Bool.not_eq_true, verifyFull_valid_iff, checkRevocation_valid_iff]
  rintro ⟨-, -, -, ⟨-, -, -, hocsp, -⟩, -, -⟩
  exact hocsp h

/-- With every other check passed, an OCSP check that fails open is passed over. -/
theorem verifyFull_of_forgiven (h : ¬RejectedElsewhere env v frame vctx) (hurl : v.options.ocspURL ≠ [])
    (hocsp : ¬OcspRejects env v.options frame) : (v.verifyFull env frame vctx).valid = true := by
  simp only [RejectedElsewhere, not_or, Bool.not_eq_false] at h
  obtain ⟨hexpiry, hissuer, hchain, hlocal, hcallback, hrevoked, hfailed, hcaps, htarget⟩ := h
  rw [verifyFull_valid_iff, checkRevocation_valid_iff]
  refine ⟨hexpiry, hissuer, hchain, ⟨hlocal, hcallback, ?_, hocsp, ?_⟩, hcaps, htarget⟩
  · rintro (h | h)
    · exact hrevoked h
    · exact hfailed h
  · rintro ⟨-, -, -, -, hnone⟩
    exact hurl hnone

/-- A negative answer stands unless the verifier fails open, the endpoint answers oddly and nothing else
rejects the frame. -/
theorem neverOverridden_iff : NeverOverridden env v frame vctx ↔
      v.options.ocspFailOpen = false ∨ ¬OddAnswer env v.options frame ∨ RejectedElsewhere env v frame vctx := by
  constructor
  · intro hnever
    by_contra hcond
    simp only [not_or, not_not, Bool.not_eq_false] at hcond
    obtain ⟨hopen, hodd, helse⟩ := hcond
    obtain ⟨hvalid, hcode, htransport⟩ := ocspCheck_of_oddAnswer hodd
    have hforgiven : ¬OcspRejects env v.options frame := by
      rintro ⟨-, -, hrevoked | hclosed⟩
      · exact hcode hrevoked
      · rw [hopen] at hclosed
        cases hclosed
    have haccepted := verifyFull_of_forgiven helse hodd.1 hforgiven
    rw [hnever.2 hodd.1 hvalid htransport] at haccepted
    cases haccepted
  · intro hcond
    -- A failing check with an answer behind it either counts or the frame is rejected otherwise.
    have hocsp : v.options.ocspURL ≠ [] → (ocspCheck pf env v.options frame.nid).valid = false →
        ¬TransportFailure env v.options frame → (v.verifyFull env frame vctx).valid = false := by
      intro hurl hvalid htransport
      rcases ocspCheck_cases hurl hvalid with h | hcode | hodd
      · exact absurd h htransport
      · exact verifyFull_of_ocspRejects ⟨hurl, hvalid, .inl hcode⟩
      rcases hcond with hclosed | hnot | helse
      · exact verifyFull_of_ocspRejects ⟨hurl, hvalid, .inr hclosed⟩
      · exact absurd hodd hnot
      · exact verifyFull_of_rejectedElsewhere helse
    refine ⟨?_, hocsp⟩
    rintro (h | h | h | ⟨payload, hanswer, hinvalid⟩)
    · exact verifyFull_of_rejectedElsewhere (.inr (.inr (.inr (.inl h))))
    · exact verifyFull_of_rejectedElsewhere (.inr (.inr (.inr (.inr (.inl h)))))
    · exact verifyFull_of_rejectedElsewhere (.inr (.inr (.inr (.inr (.inr (.inl h))))))
    · obtain ⟨hvalid, htransport⟩ := ocspCheck_of_answer hanswer hinvalid
      exact hocsp hanswer.1 hvalid htransport

end

def failOpenVerifier : NipIdentVerifier (plainPlatform anySignature) where
  options :=
    { trustedCaPublicKeys := fun _ => some (encodeKeyText (List.replicate 32 0))
      ocspURL := "https://ocsp.example"
      ocspFailOpen := true }

def unrevokedFrame : IdentFrame JsonNumber :=
  { nid := "urn:nps:agent:ca.example.com:a"
    pubKey := "ed25519:AA"
    signature := some (encodeKeyText [])
    issuedBy := "urn:nps:org:ca.example.com"
    expiresAt := "2999-01-01T00:00:00Z" }

def parentRevokedEnv : VerifierEnv where
  clock := 1
  ocsp _ := .response 200 (.ok "\x7b\"valid\":false,\"error_code\":\"NIP-CERT-PARENT-REVOKED\"\x7d")

/-- An endpoint reports that the parent of the certificate is revoked, and the frame is accepted. -/
theorem parent_revoked_accepted : NegativeAnswer parentRevokedEnv failOpenVerifier.options unrevokedFrame ∧
      (failOpenVerifier.verifyFull parentRevokedEnv unrevokedFrame {}).valid = true := by
  refine ⟨.inr (.inr (.inr ⟨⟨false, errCertParentRevoked⟩, ⟨by decide, 200, _, rfl, by decide, ?_⟩,
    rfl⟩)), ?_⟩
  · decide +kernel
  · decide +kernel

end NpsSdk.Nip
