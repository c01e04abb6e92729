import NpsSdk.GoTime
import NpsSdk.Ledger
import NpsSdk.NipFrames

/-! The verifier of X.509 chains: the leaf is a certificate for the asserted NID, each certificate is signed
by the next, and the last is a trusted root or signed by one. Parsing and the signatures themselves belong
to the standard library; which certificates may sign others is its rule and is spelled out. -/

namespace NpsSdk.Nip.X509

open List

/-! ### Certificates -/

structure CertExtension extends Extension where
  critical : Bool

structure Certificate where
  raw : Bytes
  version : Nat
  commonName : GoString
  /-- The subject's URIs as they are written, nil where there is none. -/
  uris : List (Option GoString)
  notBefore : Time
  notAfter : Time
  extensions : List CertExtension
  /-- The usages of the key that the standard library has no name for. -/
  unknownExtKeyUsage : List (List Nat)
  basicConstraintsValid : Bool
  isCA : Bool
  keyUsage : Nat
  knownPublicKeyAlgorithm : Bool

/-- `crypto/x509`, and the texts of other packages' errors. -/
structure Library where
  parseCertificate : Bytes → Except GoString Certificate
  checkSignature : Certificate → Certificate → Option GoString
  base64Error : GoString → GoString
  /-- `%q` -/
  quote : GoString → GoString
  /-- No extension occurs twice. -/
  nodup_extensions : ∀ {der c}, parseCertificate der = .ok c → (c.extensions.map (·.id)).Nodup

def keyUsageCertSign : Nat := 5

/-- The certificate may sign others: one of version 3 says so, and none denies it. -/
def Certificate.MaySign (c : Certificate) : Prop :=
  (c.version = 3 → c.basicConstraintsValid = true) ∧ (c.basicConstraintsValid = true → c.isCA = true) ∧
    (c.keyUsage ≠ 0 → c.keyUsage.testBit keyUsageCertSign = true)

instance (c : Certificate) : Decidable c.MaySign := inferInstanceAs (Decidable (_ ∧ _))

def Certificate.ValidAt (c : Certificate) (t : Time) : Prop := c.notBefore ≤ t ∧ t ≤ c.notAfter

instance (c : Certificate) (t : Time) : Decidable (c.ValidAt t) := inferInstanceAs (Decidable (_ ∧ _))

def constraintSignatureError : GoString :=
  "x509: invalid signature: parent certificate cannot sign this kind of certificate"

def errUnsupportedAlgorithm : GoString := "x509: cannot verify signature: algorithm unimplemented"

/-! ### The verifier -/

def oidExtensionExtendedKeyUsage : List Nat := [2, 5, 29, 37]
def oidEkuAgentIdentity : List Nat := [1, 3, 6, 1, 4, 1, 65715, 1, 1]
def oidEkuNodeIdentity : List Nat := [1, 3, 6, 1, 4, 1, 65715, 1, 2]
def oidNidAssuranceLevel : List Nat := [1, 3, 6, 1, 4, 1, 65715, 2, 1]

def errCertEkuMissing : GoString := "NIP-CERT-EKU-MISSING"
def errCertSubjectNidMismatch : GoString := "NIP-CERT-SUBJECT-NID-MISMATCH"
def errAssuranceMismatch : GoString := "NIP-ASSURANCE-MISMATCH"
def errAssuranceUnknown : GoString := "NIP-ASSURANCE-UNKNOWN"

def assuranceFromRank (rank : Int) : Option AssuranceLevel :=
  [assuranceAnonymous, assuranceAttested, assuranceVerified].find? (·.rank = rank)

structure VerifyResult where
  valid : Bool
  errorCode : GoString := []
  message : GoString := []
  leaf : Option Certificate := none

def ok (leaf : Certificate) : VerifyResult := { valid := true, leaf := some leaf }

def fail (errorCode message : GoString) : VerifyResult :=
  { valid := false, errorCode := errorCode, message := message }

def VerifyResult.andThen (r next : VerifyResult) : VerifyResult := if r.valid then next else r

@[simp]
theorem valid_ok (leaf : Certificate) : (ok leaf).valid = true := rfl

@[simp]
theorem valid_fail (errorCode message : GoString) : (fail errorCode message).valid = false := rfl

@[simp]
theorem VerifyResult.valid_andThen (r next : VerifyResult) :
    (r.andThen next).valid = true ↔ r.valid = true ∧ next.valid = true := by
  rw [andThen]
  split_ifs with h
  · exact ⟨fun hnext => ⟨h, hnext⟩, And.right⟩
  · exact ⟨fun hr => absurd hr h, fun hboth => absurd hboth.1 h⟩

structure VerifyOptions where
  certChainBase64UrlDer : List GoString
  assertedNID : GoString
  assertedAssuranceLevel : Option AssuranceLevel
  trustedRootCerts : List Certificate

def numText (n : Nat) : GoString := GoString.ofChars (Nat.toDigits 10 n)

def hexText (bs : Bytes) : GoString :=
  GoString.ofChars (bs.flatMap fun b => [Nat.digitChar (b.toNat / 16), Nat.digitChar (b.toNat % 16)])

def base64UrlDecode (s : GoString) : Option Bytes :=
  let bs := GoString.bytes s
  let pad := bs.length % 4
  Base64.decodeString Base64.urlEncoding
    (if pad ≠ 0 then bs ++ replicate (4 - pad) Base64.stdPadding else bs)

def checkLeafEku (leaf : Certificate) : VerifyResult :=
  match leaf.extensions.find? (·.id = oidExtensionExtendedKeyUsage) with
  | none => fail errCertEkuMissing "leaf has no ExtendedKeyUsage extension"
  | some ext =>
    if ¬ ext.critical then fail errCertEkuMissing "ExtendedKeyUsage extension is not marked critical"
    else if leaf.unknownExtKeyUsage.any fun oid => oid = oidEkuAgentIdentity || oid = oidEkuNodeIdentity then
      ok leaf
    else fail errCertEkuMissing "ExtendedKeyUsage does not contain agent-identity or node-identity OID"

section Verify

variable (lib : Library)

def checkSignatureFrom (c parent : Certificate) : Option GoString :=
  if (parent.version = 3 ∧ ¬ parent.basicConstraintsValid) ∨ (parent.basicConstraintsValid ∧ ¬ parent.isCA) then
    some constraintSignatureError
  else if parent.keyUsage ≠ 0 ∧ ¬ parent.keyUsage.testBit keyUsageCertSign then some constraintSignatureError
  else if ¬ parent.knownPublicKeyAlgorithm then some errUnsupportedAlgorithm
  else lib.checkSignature c parent

def checkSubjectNid (leaf : Certificate) (assertedNid : GoString) : VerifyResult :=
  if leaf.commonName ≠ assertedNid then
    fail errCertSubjectNidMismatch ("leaf subject CN (" ++ lib.quote leaf.commonName ++
      ") does not match asserted NID (" ++ lib.quote assertedNid ++ ")")
  else if some assertedNid ∈ leaf.uris then ok leaf
  else fail errCertSubjectNidMismatch "no SAN URI matches asserted NID"

def checkAssuranceLevel (leaf : Certificate) (asserted : Option AssuranceLevel) : VerifyResult :=
  match asserted with
  | none => ok leaf
  | some asserted =>
    match leaf.extensions.find? (·.id = oidNidAssuranceLevel) with
    | none => ok leaf
    | some ext =>
      match ext.value with
      | [0x0A, 0x01, rank] =>
        match assuranceFromRank rank.toNat with
        | none =>
          fail errAssuranceUnknown
            ("assurance-level extension contains unknown value: " ++ numText rank.toNat)
        | some certLevel =>
          if certLevel ≠ asserted then
            fail errAssuranceMismatch ("cert assurance-level (" ++ certLevel.wire ++
              ") does not match asserted (" ++ asserted.wire ++ ")")
          else ok leaf
      | value => fail errCertFormatInvalid ("malformed assurance-level extension: " ++ hexText value)

def checkLinks (i : Nat) : List Certificate → Option VerifyResult
  | c :: parent :: rest =>
    match checkSignatureFrom lib c parent with
    | some err =>
      some (fail errCertFormatInvalid ("chain link " ++ numText i ++ " signature did not verify: " ++ err))
    | none => checkLinks (i + 1) (parent :: rest)
  | _ => none

/-- The certificate is a trusted root or signed by one. -/
def anchors (last root : Certificate) : Bool :=
  last.raw = root.raw || (checkSignatureFrom lib last root).isNone

def checkChainSignature (leaf : Certificate) (rest trustedRoots : List Certificate) : VerifyResult :=
  if trustedRoots = [] then fail errCertFormatInvalid "no trusted X.509 roots configured"
  else
    match checkLinks lib 0 (leaf :: rest) with
    | some failure => failure
    | none =>
      if trustedRoots.any (anchors lib ((leaf :: rest).getLast (cons_ne_nil _ _))) then ok leaf
      else fail errCertFormatInvalid "chain does not anchor to any trusted root"

def decodeCertificate (i : Nat) (s : GoString) : Except VerifyResult Certificate :=
  match base64UrlDecode s with
  | none =>
    .error (fail errCertFormatInvalid
      ("chain[" ++ numText i ++ "] base64url decode: " ++ lib.base64Error s))
  | some der =>
    match lib.parseCertificate der with
    | .error err =>
      .error (fail errCertFormatInvalid ("chain[" ++ numText i ++ "] DER parse: " ++ err))
    | .ok c => .ok c

def decodeChain (i : Nat) : List GoString → Except VerifyResult (List Certificate)
  | [] => .ok []
  | s :: rest =>
    match decodeCertificate lib i s with
    | .error failure => .error failure
    | .ok c => (decodeChain (i + 1) rest).map (c :: ·)

def verify (opts : VerifyOptions) : VerifyResult :=
  match decodeChain lib 0 opts.certChainBase64UrlDer with
  | .error failure => failure
  | .ok [] => fail errCertFormatInvalid "cert_chain is empty"
  | .ok (leaf :: rest) =>
    (checkLeafEku leaf).andThen <|
      (checkSubjectNid lib leaf opts.assertedNID).andThen <|
        (checkAssuranceLevel leaf opts.assertedAssuranceLevel).andThen <|
          (checkChainSignature lib leaf rest opts.trustedRootCerts).andThen (ok leaf)

/-! ### What an accepted chain is -/

/-- The certificate has a signature of another one, which may sign. -/
def SignedBy (c parent : Certificate) : Prop := parent.MaySign ∧ lib.checkSignature c parent = none

structure Sound (opts : VerifyOptions) (leaf : Certificate) (rest : List Certificate) : Prop where
  eku : ∃ ext ∈ leaf.extensions, ext.id = oidExtensionExtendedKeyUsage ∧ ext.critical = true
  usage : oidEkuAgentIdentity ∈ leaf.unknownExtKeyUsage ∨ oidEkuNodeIdentity ∈ leaf.unknownExtKeyUsage
  commonName : leaf.commonName = opts.assertedNID
  uri : some opts.assertedNID ∈ leaf.uris
  assurance : ∀ level ext, opts.assertedAssuranceLevel = some level → ext ∈ leaf.extensions →
    ext.id = oidNidAssuranceLevel →
      ∃ rank, ext.value = [0x0A, 0x01, rank] ∧ assuranceFromRank rank.toNat = some level
  links : List.IsChain (SignedBy lib) (leaf :: rest)
  anchored : ∃ root ∈ opts.trustedRootCerts,
    ((leaf :: rest).getLast (cons_ne_nil _ _)).raw = root.raw ∨
      SignedBy lib ((leaf :: rest).getLast (cons_ne_nil _ _)) root

variable {lib}

theorem signedBy_of_checkSignatureFrom {c parent : Certificate} (h : checkSignatureFrom lib c parent = none) :
    SignedBy lib c parent := by
  rw [checkSignatureFrom] at h
  split_ifs at h with hconstraints husage hknown
  rw [not_or, not_and, not_and, not_not, not_not] at hconstraints
  rw [not_and, not_not] at husage
  exact ⟨⟨hconstraints.1, hconstraints.2, husage⟩, h⟩

variable {i : Nat} {leaf : Certificate}

variable (lib) in
theorem checkLinks_spec (chain : List Certificate) (i : Nat) :
    (∃ failure, checkLinks lib i chain = some failure ∧ failure.valid = false) ∨
      (checkLinks lib i chain = none ∧ List.IsChain (SignedBy lib) chain) := by
  induction chain generalizing i with
  | nil => exact .inr ⟨rfl, .nil⟩
  | cons c chain ih =>
    cases chain with
    | nil => exact .inr ⟨rfl, .singleton c⟩
    | cons parent rest =>
      rw [checkLinks]
      cases hlink : checkSignatureFrom lib c parent with
      | some err => exact .inl ⟨_, rfl, rfl⟩
      | none => exact (ih (i + 1)).imp_right (And.imp_right (.cons_cons (signedBy_of_checkSignatureFrom hlink)))

theorem checkLeafEku_valid (h : (checkLeafEku leaf).valid = true) :
    (∃ ext ∈ leaf.extensions, ext.id = oidExtensionExtendedKeyUsage ∧ ext.critical = true) ∧
      (oidEkuAgentIdentity ∈ leaf.unknownExtKeyUsage ∨ oidEkuNodeIdentity ∈ leaf.unknownExtKeyUsage) := by
  rw [checkLeafEku] at h
  split at h
  · cases h
  rename_i ext hext
  split_ifs at h with hcritical husage
  · have hid : ext.id = oidExtensionExtendedKeyUsage := by simpa using find?_some hext
    obtain ⟨oid, hoid, heq⟩ := any_eq_true.mp husage
    rw [Bool.or_eq_true, decide_eq_true_eq, decide_eq_true_eq] at heq
    refine ⟨⟨ext, mem_of_find?_eq_some hext, hid, hcritical⟩, ?_⟩
    rcases heq with rfl | rfl
    · exact .inl hoid
    · exact .inr hoid
  · cases h
  · cases h

theorem checkSubjectNid_valid {nid : GoString} (h : (checkSubjectNid lib leaf nid).valid = true) :
    leaf.commonName = nid ∧ some nid ∈ leaf.uris := by
  rw [checkSubjectNid] at h
  split_ifs at h with hname huri
  · cases h
  · exact ⟨not_not.mp hname, huri⟩
  · cases h

theorem checkAssuranceLevel_valid {asserted : Option AssuranceLevel} (hnodup : (leaf.extensions.map (·.id)).Nodup)
    (h : (checkAssuranceLevel leaf asserted).valid = true) {level : AssuranceLevel} {ext : CertExtension}
    (hlevel : asserted = some level) (hext : ext ∈ leaf.extensions) (hid : ext.id = oidNidAssuranceLevel) :
    ∃ rank, ext.value = [0x0A, 0x01, rank] ∧ assuranceFromRank rank.toNat = some level := by
  have hfind := Ledger.find?_key hnodup hext
  rw [hid] at hfind
  subst hlevel
  simp only [checkAssuranceLevel, hfind] at h
  split at h
  · rename_i rank hvalue
    refine ⟨rank, hvalue, ?_⟩
    split at h
    · cases h
    rename_i certLevel hcert
    split_ifs at h with hne
    · cases h
    · rw [hcert, not_not.mp hne]
  · cases h

theorem checkChainSignature_valid {rest trustedRoots : List Certificate}
    (h : (checkChainSignature lib leaf rest trustedRoots).valid = true) : List.IsChain (SignedBy lib) (leaf :: rest) ∧
      ∃ root ∈ trustedRoots, ((leaf :: rest).getLast (cons_ne_nil _ _)).raw = root.raw ∨
        SignedBy lib ((leaf :: rest).getLast (cons_ne_nil _ _)) root := by
  rw [checkChainSignature] at h
  rcases checkLinks_spec lib (leaf :: rest) 0 with ⟨failure, hlinks, hinvalid⟩ | ⟨hlinks, hchain⟩
  · rw [hlinks] at h
    dsimp only at h
    split_ifs at h
    · cases h
    · rw [hinvalid] at h
      cases h
  · rw [hlinks] at h
    split_ifs at h with hroots hanchor
    · cases h
    · refine ⟨hchain, ?_⟩
      obtain ⟨root, hroot, hlast⟩ := any_eq_true.mp hanchor
      rw [anchors, Bool.or_eq_true, decide_eq_true_eq, Option.isNone_iff_eq_none] at hlast
      exact ⟨root, hroot, hlast.imp_right signedBy_of_checkSignatureFrom⟩
    · cases h

variable (lib) in
theorem decodeCertificate_spec (i : Nat) (s : GoString) :
    (∃ failure, decodeCertificate lib i s = .error failure ∧ failure.valid = false) ∨
      ∃ c, decodeCertificate lib i s = .ok c ∧ (c.extensions.map (·.id)).Nodup := by
  rw [decodeCertificate]
  split
  · exact .inl ⟨_, rfl, rfl⟩
  split
  · exact .inl ⟨_, rfl, rfl⟩
  · rename_i hparse
    exact .inr ⟨_, rfl, lib.nodup_extensions hparse⟩

variable (lib) in
theorem decodeChain_spec (chain : List GoString) (i : Nat) :
    (∃ failure, decodeChain lib i chain = .error failure ∧ failure.valid = false) ∨
      ∃ certs, decodeChain lib i chain = .ok certs ∧ ∀ c ∈ certs, (c.extensions.map (·.id)).Nodup := by
  induction chain generalizing i with
  | nil => exact .inr ⟨[], rfl, nofun⟩
  | cons s chain ih =>
    rw [decodeChain]
    rcases decodeCertificate_spec lib i s with ⟨failure, hcert, hinvalid⟩ | ⟨c, hcert, hnodup⟩ <;> rw [hcert]
    · exact .inl ⟨failure, rfl, hinvalid⟩
    rcases ih (i + 1) with ⟨failure, hrest, hinvalid⟩ | ⟨certs, hrest, hall⟩ <;> rw [hrest]
    · exact .inl ⟨failure, rfl, hinvalid⟩
    · exact .inr ⟨_, rfl, forall_mem_cons.mpr ⟨hnodup, hall⟩⟩

/-- An accepted chain is that of a certificate for the asserted NID, of links and an anchor. The time does
not come into it. -/
theorem accepted_chain_sound (opts : VerifyOptions) (h : (verify lib opts).valid = true) :
    ∃ leaf rest, decodeChain lib 0 opts.certChainBase64UrlDer = .ok (leaf :: rest) ∧
      (verify lib opts).leaf = some leaf ∧ Sound lib opts leaf rest := by
  rw [verify] at h ⊢
  rcases decodeChain_spec lib opts.certChainBase64UrlDer 0 with ⟨_, hfailed, hinvalid⟩ | ⟨_, hcerts, hnodup⟩
  · rw [hfailed] at h
    exact absurd (hinvalid.symm.trans h) Bool.false_ne_true
  split at h
  · rename_i hfailed
    cases hcerts.symm.trans hfailed
  · cases h
  rename_i leaf rest hdecode
  simp only [VerifyResult.valid_andThen, valid_ok, and_true] at h
  obtain ⟨heku, hsubject, hassurance, hchain⟩ := h
  obtain ⟨hext, husage⟩ := checkLeafEku_valid heku
  obtain ⟨hname, huri⟩ := checkSubjectNid_valid hsubject
  obtain ⟨hlinks, hanchored⟩ := checkChainSignature_valid hchain
  refine ⟨leaf, rest, hdecode, ?_, hext, husage, hname, huri, ?_, hlinks, hanchored⟩
  · rw [VerifyResult.andThen, if_pos heku, VerifyResult.andThen, if_pos hsubject, VerifyResult.andThen,
      if_pos hassurance, VerifyResult.andThen, if_pos hchain]
    rfl
  · intro level ext hlevel hmem hid
    cases hcerts.symm.trans hdecode
    exact checkAssuranceLevel_valid (hnodup leaf mem_cons_self) hassurance hlevel hmem hid

end Verify

/-! ### An old chain -/

def oldLeaf : Certificate :=
  { raw := [0], version := 3, commonName := "urn:nps:agent:ca:a", uris := [some ("urn:nps:agent:ca:a" : GoString)]
    notBefore := 0, notAfter := 1
    extensions := [{ id := oidExtensionExtendedKeyUsage, value := [], critical := true }]
    unknownExtKeyUsage := [oidEkuAgentIdentity], basicConstraintsValid := false, isCA := false
    keyUsage := 0, knownPublicKeyAlgorithm := true }

def oldIssuer : Certificate :=
  { oldLeaf with
    raw := [1], version := 1, commonName := "ca", uris := [], extensions := [], unknownExtKeyUsage := [] }

def oldLibrary : Library where
  parseCertificate der :=
    if der = [0] then .ok oldLeaf else if der = [1] then .ok oldIssuer else .error "x509: malformed certificate"
  checkSignature _ _ := none
  base64Error _ := []
  quote s := s
  nodup_extensions {der c} h := by
    split_ifs at h <;> cases h <;> decide

def oldOptions : VerifyOptions :=
  { certChainBase64UrlDer := ["AA", "AQ"], assertedNID := "urn:nps:agent:ca:a", assertedAssuranceLevel := none
    trustedRootCerts := [oldIssuer] }

theorem old_chain_sound : ∃ leaf rest,
    decodeChain oldLibrary 0 oldOptions.certChainBase64UrlDer = .ok (leaf :: rest) ∧
      (verify oldLibrary oldOptions).leaf = some leaf ∧ Sound oldLibrary oldOptions leaf rest :=
  accepted_chain_sound oldOptions (by decide)

/-- The chain is accepted after both certificates expired, and although the issuer is not marked as one. -/
theorem old_chain_accepted : (verify oldLibrary oldOptions).valid = true ∧
      decodeChain oldLibrary 0 oldOptions.certChainBase64UrlDer = .ok [oldLeaf, oldIssuer] ∧
      ¬ oldLeaf.ValidAt 2 ∧ ¬ oldIssuer.ValidAt 2 ∧ oldIssuer.isCA = false :=
  ⟨by decide, rfl, by decide, by decide, rfl⟩

end NpsSdk.Nip.X509
