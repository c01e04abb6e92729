import NpsSdk.NipScope

/-! What `VerifyFull` accepts, condition by condition, and which step it names when it does not accept. -/

namespace NpsSdk.Nip

open GoString List Option

section FullVerification

variable {N : Type} {pf : Platform N}

/-! ### The conditions -/

def Unexpired (now : Time) (frame : IdentFrame N) : Prop :=
  ∃ expiresAt, GoTime.parse GoTime.rfc3339 frame.expiresAt = some expiresAt ∧ now < expiresAt

def IssuerTrusted (o : VerifierOptions pf) (frame : IdentFrame N) : Prop :=
  ∃ keyText, o.trustedCaPublicKeys frame.issuedBy = some keyText

def SignatureVerifies (o : VerifierOptions pf) (frame : IdentFrame N) : Prop :=
  ∃ keyText key text signature, o.trustedCaPublicKeys frame.issuedBy = some keyText ∧
    parsePubKeyString pf keyText = .ok key ∧ frame.signature.bind afterKeyPrefix = some text ∧
    rawURLDecode text = some signature ∧
    pf.ed.verify key (canonicalJSON pf.fmt frame.unsignedDict) signature = true

def ChainAccepted (v : NipIdentVerifier pf) (frame : IdentFrame N) : Prop :=
  ∀ hook, v.x509Verifier = some hook → v.options.trustedX509Roots ≠ [] → frame.isV2 = true →
    (hook (frame.certChain.getD []) frame.nid frame.assuranceLevel v.options.trustedX509Roots).valid = true

def sourceOutcome (env : VerifierEnv) (o : VerifierOptions pf) (frame : IdentFrame N) :
    NipRevocationSource → Option NipRevocationOutcome
  | .localCrl => o.localRevokedSerials.map fun serials => if frame.serial ∈ serials then .revoked else .good
  | .callback => o.revocationCheck.map fun check => if (check frame).all (·.valid) then .good else .revoked
  | .caStore =>
    o.revocationStore.map fun getBySerial =>
      if (getBySerial frame.serial).1.any (·.revokedAt.isSome) then .revoked
      else if (getBySerial frame.serial).2 then .unavailable
      else .good
  | .ocsp =>
    if o.ocspURL = [] then none
    else if (ocspCheck pf env o frame.nid).valid then some .good
    else if (ocspCheck pf env o frame.nid).errorCode = errCertRevoked then some .revoked
    else some .unavailable

structure NotRevoked (env : VerifierEnv) (o : VerifierOptions pf) (frame : IdentFrame N) : Prop where
  noneRevoked : ∀ source, sourceOutcome env o frame source ≠ some .revoked
  available : ∀ source, sourceOutcome env o frame source = some .unavailable → source = .ocsp ∧ o.ocspFailOpen = true
  present : o.revocationMode = nipRevocationRequired → ∃ source, sourceOutcome env o frame source ≠ none

def TargetCovered (pf : Platform N) (targetNodePath : GoString) (frame : IdentFrame N) : Prop :=
  targetNodePath = [] ∨
    ∃ nodes, scopeNodes frame.scope = some nodes ∧ ∃ pattern ∈ nodes, Covers pf pattern targetNodePath

variable (env : VerifierEnv) (v : NipIdentVerifier pf) (frame : IdentFrame N) (vctx : VerifyContext)

/-- What the steps of the verification ask for. -/
def StepHolds : Nat → Prop
  | 1 => Unexpired (if vctx.asOf = 0 then env.clock else vctx.asOf) frame
  | 2 => IssuerTrusted v.options frame
  | 3 => SignatureVerifies v.options frame ∧ ChainAccepted v frame
  | 4 => NotRevoked env v.options frame
  | 5 => ∀ capability ∈ vctx.requiredCapabilities, capability ∈ frame.capabilities
  | 6 => TargetCovered pf vctx.targetNodePath frame
  | _ => True

/-- The result names the step, or is what the callback of step 4 said. -/
def Blames (r : IdentVerifyResult) (step : Nat) : Prop :=
  r.stepFailed = step ∨
    step = 4 ∧ ∃ check, v.options.revocationCheck = some check ∧ check frame = some r

/-- A result of some steps is valid if all of them hold, and blames the first that does not. -/
def Explains (first last : Nat) (r : IdentVerifyResult) : Prop :=
  (r.valid = true ↔ ∀ step, first ≤ step → step < last → StepHolds env v frame vctx step) ∧
    (r.valid = false → ∃ step, first ≤ step ∧ step < last ∧ ¬ StepHolds env v frame vctx step ∧
      (∀ earlier, first ≤ earlier → earlier < step → StepHolds env v frame vctx earlier) ∧ Blames v frame r step)

variable {env v frame vctx}

theorem Explains.andThen {first middle last : Nat} {r next : IdentVerifyResult} (hfirst : first ≤ middle)
    (hlast : middle ≤ last) (hr : Explains env v frame vctx first middle r)
    (hnext : Explains env v frame vctx middle last next) : Explains env v frame vctx first last (r.andThen next) := by
  cases hvalid : r.valid with
  | false =>
    have heq : r.andThen next = r := if_neg (by rw [hvalid]; decide)
    obtain ⟨step, hlow, hhigh, hfails, hearlier, hblames⟩ := hr.2 hvalid
    rw [heq]
    refine ⟨iff_of_false (by rw [hvalid]; decide) fun hall => hfails (hall step hlow (by omega)), fun _ => ?_⟩
    exact ⟨step, hlow, by omega, hfails, hearlier, hblames⟩
  | true =>
    have heq : r.andThen next = next := if_pos hvalid
    have hheld := hr.1.mp hvalid
    rw [heq]
    constructor
    · rw [hnext.1]
      constructor
      · intro hall step hlow hhigh
        by_cases hstep : step < middle
        · exact hheld step hlow hstep
        · exact hall step (by omega) hhigh
      · exact fun hall step hlow hhigh => hall step (by omega) hhigh
    · intro hinvalid
      obtain ⟨step, hlow, hhigh, hfails, hearlier, hblames⟩ := hnext.2 hinvalid
      refine ⟨step, by omega, hhigh, hfails, ?_, hblames⟩
      intro earlier hlow' hhigh'
      by_cases hstep : earlier < middle
      · exact hheld earlier hlow' hstep
      · exact hearlier earlier (by omega) hhigh'

variable {r : IdentVerifyResult} {step : Nat} {holds : Prop}

/-- A result of one step. -/
theorem Explains.of_step (hvalid : r.valid = true ↔ StepHolds env v frame vctx step)
    (hblames : r.valid = false → Blames v frame r step) : Explains env v frame vctx step (step + 1) r := by
  have hone : ∀ {P : Nat → Prop}, (∀ s, step ≤ s → s < step + 1 → P s) ↔ P step := by
    intro P
    constructor
    · exact fun h => h step (Nat.le_refl _) (Nat.lt_succ_self _)
    · intro h s hlow hhigh
      rwa [Nat.le_antisymm (Nat.lt_succ_iff.mp hhigh) hlow]
  refine ⟨hvalid.trans hone.symm, fun hinvalid => ⟨step, Nat.le_refl _, Nat.lt_succ_self _, ?_, ?_, hblames hinvalid⟩⟩
  · rw [← hvalid, hinvalid]
    decide
  · omega

/-! ### The steps -/

/-- The result passes if the condition holds, and fails in a step if it does not. -/
def Decides (step : Nat) (holds : Prop) (r : IdentVerifyResult) : Prop :=
  holds ∧ r.valid = true ∨ ¬ holds ∧ r.valid = false ∧ r.stepFailed = step

theorem decides_passed (h : holds) : Decides step holds passed := .inl ⟨h, rfl⟩

theorem decides_fail (h : ¬ holds) (code message : GoString) : Decides step holds (fail step code message) :=
  .inr ⟨h, rfl, rfl⟩

theorem Decides.congr {holds holds' : Prop} (h : Decides step holds r) (hiff : holds ↔ holds') :
    Decides step holds' r := by
  rwa [← hiff]

theorem Decides.valid_iff (h : Decides step holds r) : r.valid = true ↔ holds := by
  rcases h with ⟨hholds, hvalid⟩ | ⟨hnot, hinvalid, -⟩
  · exact iff_of_true hvalid hholds
  · exact iff_of_false (by rw [hinvalid]; decide) hnot

theorem Decides.stepFailed (h : Decides step holds r) (hinvalid : r.valid = false) : r.stepFailed = step := by
  rcases h with ⟨-, hvalid⟩ | ⟨-, -, hstep⟩
  · rw [hvalid] at hinvalid
    cases hinvalid
  · exact hstep

theorem Decides.andThen {holds holds' : Prop} {r next : IdentVerifyResult} (h : Decides step holds r)
    (hnext : holds → Decides step holds' next) : Decides step (holds ∧ holds') (r.andThen next) := by
  rcases h with ⟨hholds, hvalid⟩ | ⟨hnot, hinvalid, hstep⟩
  · have heq : r.andThen next = next := if_pos hvalid
    rw [heq]
    exact (hnext hholds).congr ⟨fun h => ⟨hholds, h⟩, And.right⟩
  · have heq : r.andThen next = r := if_neg (by rw [hinvalid]; decide)
    rw [heq]
    exact .inr ⟨fun h => hnot h.1, hinvalid, hstep⟩

theorem Decides.explains (h : Decides step (StepHolds env v frame vctx step) r) :
    Explains env v frame vctx step (step + 1) r :=
  .of_step h.valid_iff fun hinvalid => .inl (h.stepFailed hinvalid)

theorem checkExpiry_decides (now : Time) : Decides 1 (Unexpired now frame) (checkExpiry now frame) := by
  rw [checkExpiry]
  cases hparse : GoTime.parse GoTime.rfc3339 frame.expiresAt with
  | none =>
    refine decides_fail ?_ _ _
    rintro ⟨expiresAt, hsome, -⟩
    rw [hparse] at hsome
    cases hsome
  | some expiresAt =>
    dsimp only
    split_ifs with h
    · exact decides_passed ⟨expiresAt, hparse, h⟩
    refine decides_fail ?_ _ _
    rintro ⟨_, hsome, hlt⟩
    rw [hparse] at hsome
    cases hsome
    exact h hlt

theorem checkSignature_decides {o : VerifierOptions pf} {keyText : GoString}
    (hkey : o.trustedCaPublicKeys frame.issuedBy = some keyText) :
    Decides 3 (SignatureVerifies o frame) (checkSignature pf keyText frame) := by
  have hparts : SignatureVerifies o frame ↔ ∃ key text signature, parsePubKeyString pf keyText = .ok key ∧
      frame.signature.bind afterKeyPrefix = some text ∧ rawURLDecode text = some signature ∧
      pf.ed.verify key (canonicalJSON pf.fmt frame.unsignedDict) signature = true := by
    rw [SignatureVerifies, hkey]
    constructor
    · rintro ⟨_, key, text, signature, heq, hrest⟩
      cases heq
      exact ⟨key, text, signature, hrest⟩
    · rintro ⟨key, text, signature, hrest⟩
      exact ⟨keyText, key, text, signature, rfl, hrest⟩
  refine Decides.congr ?_ hparts.symm
  rw [checkSignature]
  cases parsePubKeyString pf keyText with
  | error err => exact decides_fail (by rintro ⟨_, _, _, h, -⟩; cases h) _ _
  | ok key =>
    cases frame.signature.bind afterKeyPrefix with
    | none => exact decides_fail (by rintro ⟨_, _, _, -, h, -⟩; cases h) _ _
    | some text =>
      dsimp only
      cases hdecode : rawURLDecode text with
      | none =>
        refine decides_fail ?_ _ _
        rintro ⟨_, _, _, -, htext, h, -⟩
        cases htext
        rw [hdecode] at h
        cases h
      | some signature =>
        dsimp only
        split_ifs with hverify
        · exact decides_passed ⟨key, text, signature, rfl, rfl, hdecode, hverify⟩
        refine decides_fail ?_ _ _
        rintro ⟨_, _, _, hok, htext, h, hverified⟩
        cases hok
        cases htext
        rw [hdecode] at h
        cases h
        exact hverify hverified

theorem checkChain_decides {now : Time} (hphase3 : v.options.phase3Enforcement = false) :
    Decides 3 (ChainAccepted v frame) (checkChain env v frame now) := by
  rw [checkChain, ChainAccepted]
  cases v.x509Verifier with
  | none => exact decides_passed fun hook h => nomatch h
  | some hook =>
    dsimp only
    split
    next hboth =>
      split
      next hvalid =>
        rw [hphase3]
        exact decides_passed fun _ h _ _ => (some.inj h) ▸ hvalid
      next hinvalid => exact decides_fail (fun h => hinvalid (h hook rfl hboth.1 hboth.2)) _ _
    next hnot => exact decides_passed fun _ _ hroots hv2 => absurd ⟨hroots, hv2⟩ hnot

theorem checkCapabilities_decides (required : List GoString) :
    Decides 5 (∀ capability ∈ required, capability ∈ frame.capabilities) (checkCapabilities required frame) := by
  have hmissing : required.filter (· ∉ frame.capabilities) = [] ↔
      ∀ capability ∈ required, capability ∈ frame.capabilities := by
    simp [filter_eq_nil_iff]
  rw [checkCapabilities]
  split_ifs with h
  · exact decides_passed (hmissing.mp h)
  · exact decides_fail (fun hall => h (hmissing.mpr hall)) _ _

/-! ### Scope -/

def Ascii (s : GoString) : Prop := ∀ r ∈ s, ∃ c : Char, r = .char c ∧ c.toNat < 128

theorem Ascii.length_bytes {s : GoString} (h : Ascii s) : (bytes s).length = s.length := by
  induction s with
  | nil => rfl
  | cons r s ih =>
    obtain ⟨c, rfl, hc⟩ := h r mem_cons_self
    have hone : (String.utf8EncodeChar c).length = 1 := by
      rw [← Char.ofNat_toNat c, utf8EncodeChar_ascii _ hc]
      rfl
    rw [bytes_cons, bytes_char, length_append, hone, ih fun r hr => h r (mem_cons_of_mem _ hr), length_cons,
      Nat.add_comm]

theorem Ascii.canonical {s : GoString} (h : Ascii s) : Canonical s := by
  induction s with
  | nil => exact canonical_nil
  | cons r s ih =>
    obtain ⟨c, rfl, -⟩ := h r mem_cons_self
    exact canonical_char_iff.mpr (ih fun r hr => h r (mem_cons_of_mem _ hr))

section

variable (hslash : ∀ c, pf.toLower c = '/' ↔ c = '/')
include hslash

theorem ascii_matchesRight {pattern path : GoString} (hpattern : Ascii pattern) (hpath : Ascii path) :
    MatchesRight pf pattern path := by
  refine (matchesRight_iff hslash hpath.canonical).mpr fun stem hstem hlower => ?_
  have hstemAscii : Ascii stem := by
    intro r hr
    refine hpattern r ?_
    rw [patternPrefix_eq_some_iff.mp hstem]
    exact mem_append_left _ hr
  have hfrontAscii : Ascii (path.take stem.length) := fun r hr => hpath r (mem_of_mem_take hr)
  have hlength : stem.length ≤ path.length := by
    rw [← @length_toLower N pf stem, ← @length_toLower N pf path]
    exact hlower.length_le
  rw [FindsBoundary, hstemAscii.length_bytes, hpath.length_bytes, hfrontAscii.length_bytes, length_take_of_le hlength]
  exact ⟨hlength, Iff.rfl⟩

theorem checkPatterns_decides {patterns : List GoString} {path : GoString} (hpatterns : ∀ p ∈ patterns, Ascii p)
    (hpath : Ascii path) :
    Decides 6 (∃ pattern ∈ patterns, Covers pf pattern path) (checkPatterns pf patterns path) := by
  induction patterns with
  | nil => exact decides_fail (by rintro ⟨p, hp, -⟩; cases hp) _ _
  | cons pattern patterns ih =>
    have hright := ascii_matchesRight hslash (hpatterns pattern mem_cons_self) hpath
    rw [checkPatterns]
    cases hmatch : nwpPathMatches pf pattern path with
    | matched => exact decides_passed ⟨pattern, mem_cons_self, hright.matched_iff.mp hmatch⟩
    | indexOutOfRange => exact absurd hmatch hright.inRange
    | unmatched =>
      have hnot : ¬ Covers pf pattern path := by
        rw [← hright.matched_iff, hmatch]
        decide
      refine (ih fun p hp => hpatterns p (mem_cons_of_mem _ hp)).congr ?_
      constructor
      · rintro ⟨p, hp, hcovers⟩
        exact ⟨p, mem_cons_of_mem _ hp, hcovers⟩
      · rintro ⟨p, hp, hcovers⟩
        rcases mem_cons.mp hp with rfl | hp
        · exact absurd hcovers hnot
        · exact ⟨p, hp, hcovers⟩

theorem checkTarget_decides {path : GoString} (hpath : Ascii path)
    (hpatterns : ∀ nodes, scopeNodes frame.scope = some nodes → ∀ p ∈ nodes, Ascii p) :
    Decides 6 (TargetCovered pf path frame) (checkTarget pf path frame) := by
  rw [checkTarget]
  split
  next hempty => exact decides_passed (.inl hempty)
  next hne =>
    have hcovered : TargetCovered pf path frame ↔
        ∃ nodes, scopeNodes frame.scope = some nodes ∧ ∃ pattern ∈ nodes, Covers pf pattern path :=
      ⟨fun h => h.resolve_left hne, .inr⟩
    refine Decides.congr ?_ hcovered.symm
    rw [checkScope]
    cases hnodes : scopeNodes frame.scope with
    | none => exact decides_fail (by rintro ⟨_, h, -⟩; cases h) _ _
    | some nodes =>
      refine (checkPatterns_decides hslash (hpatterns nodes hnodes) hpath).congr ?_
      exact ⟨fun h => ⟨nodes, rfl, h⟩, by rintro ⟨_, heq, h⟩; cases heq; exact h⟩

end

/-! ### Revocation -/

theorem stepFailed_observe {p : NipRevocationPolicy} {source : NipRevocationSource} {outcome : NipRevocationOutcome}
    (h : (p.observe source outcome).2 = some r) : r.stepFailed = 4 := by
  unfold NipRevocationPolicy.observe at h
  dsimp only at h
  split at h
  · cases h
  · cases outcome <;> cases h <;> rfl

theorem orElse_cases {P : IdentVerifyResult → Prop} {step : NipRevocationPolicy × Option IdentVerifyResult}
    {next : NipRevocationPolicy → IdentVerifyResult} (hstep : ∀ r, step.2 = some r → P r) (hnext : ∀ p, P (next p)) :
    P (orElse step next) := by
  rw [orElse]
  cases hresult : step.2 with
  | none => exact hnext step.1
  | some r => exact hstep r hresult

variable (v frame) in
/-- A verdict on revocation that is not valid blames the step. -/
def BlamesRevocation (r : IdentVerifyResult) : Prop := r.valid = false → Blames v frame r 4

theorem checkRevocation_blames : BlamesRevocation v frame (checkRevocation pf env v.options frame) := by
  rw [checkRevocation]
  apply orElse_cases
  · intro r hr _
    rw [localCrlStep] at hr
    split at hr
    · cases hr
    · exact .inl (stepFailed_observe hr)
  · intro p
    apply orElse_cases
    · intro r hr _
      rw [callbackStep] at hr
      split at hr
      · cases hr
      next check hcheck =>
        split at hr
        next r' hanswer =>
          split at hr
          · cases hr
          · cases hr
            exact .inr ⟨rfl, check, hcheck, hanswer⟩
        · cases hr
    · intro p
      apply orElse_cases
      · intro r hr _
        rw [storeStep] at hr
        split at hr
        · cases hr
        · exact .inl (stepFailed_observe hr)
      · intro p
        apply orElse_cases
        · intro r hr _
          rw [ocspStep] at hr
          split at hr
          · cases hr
          · exact .inl (stepFailed_observe hr)
        · intro p
          rw [NipRevocationPolicy.complete]
          split
          · exact fun _ => .inl rfl
          · intro hinvalid
            cases hinvalid

variable {o : VerifierOptions pf}

theorem localCrl_outcome : (sourceOutcome env o frame .localCrl = some .revoked ↔ LocalCrlHit o frame) ∧
    sourceOutcome env o frame .localCrl ≠ some .unavailable := by
  rw [sourceOutcome, LocalCrlHit]
  cases o.localRevokedSerials with
  | none => simp
  | some serials => by_cases hmem : frame.serial ∈ serials <;> simp [hmem]

theorem callback_outcome : (sourceOutcome env o frame .callback = some .revoked ↔ CallbackRejects o frame) ∧
    sourceOutcome env o frame .callback ≠ some .unavailable := by
  rw [sourceOutcome, CallbackRejects]
  cases o.revocationCheck with
  | none => simp
  | some check =>
    cases hanswer : check frame with
    | none => simp [hanswer]
    | some r => cases hvalid : r.valid <;> simp [hanswer, hvalid]

theorem store_outcome : (sourceOutcome env o frame .caStore = some .revoked ↔ StoreRevoked o frame) ∧
    (sourceOutcome env o frame .caStore = some .unavailable ↔ StoreFailed o frame ∧ ¬ StoreRevoked o frame) := by
  rw [sourceOutcome, StoreFailed, StoreRevoked]
  cases o.revocationStore with
  | none => simp
  | some getBySerial =>
    cases hanswer : getBySerial frame.serial with
    | mk record failed =>
      cases record with
      | none => cases failed <;> simp [hanswer]
      | some record => cases hrevoked : record.revokedAt <;> cases failed <;> simp [hanswer, hrevoked]

theorem ocsp_rejects_iff : OcspRejects env o frame ↔ sourceOutcome env o frame .ocsp = some .revoked ∨
      sourceOutcome env o frame .ocsp = some .unavailable ∧ o.ocspFailOpen = false := by
  rw [sourceOutcome, OcspRejects]
  by_cases hurl : o.ocspURL = []
  · simp [hurl]
  by_cases hvalid : (ocspCheck pf env o frame.nid).valid = true
  · simp [hurl, hvalid]
  · by_cases hcode : (ocspCheck pf env o frame.nid).errorCode = errCertRevoked <;> simp [hvalid, hcode]

theorem sourceMissing_iff :
    SourceMissing o ↔ o.revocationMode = nipRevocationRequired ∧ ∀ source, sourceOutcome env o frame source = none := by
  have hocsp : sourceOutcome env o frame .ocsp = none ↔ o.ocspURL = [] := by
    rw [sourceOutcome]
    by_cases hurl : o.ocspURL = []
    · simp [hurl]
    · simp only [hurl, if_false]
      split_ifs <;> simp
  refine and_congr_right fun _ => ?_
  constructor
  · rintro ⟨hlocal, hcallback, hstore, hurl⟩ source
    cases source with
    | localCrl => rw [sourceOutcome, hlocal, map_none]
    | callback => rw [sourceOutcome, hcallback, map_none]
    | caStore => rw [sourceOutcome, hstore, map_none]
    | ocsp => exact hocsp.mpr hurl
  · intro hnone
    exact ⟨map_eq_none_iff.mp (hnone .localCrl), map_eq_none_iff.mp (hnone .callback),
      map_eq_none_iff.mp (hnone .caStore), hocsp.mp (hnone .ocsp)⟩

/-- The sources reject a frame for what one of them says. -/
theorem notRevoked_iff : NotRevoked env o frame ↔
      ¬LocalCrlHit o frame ∧ ¬CallbackRejects o frame ∧ ¬(StoreRevoked o frame ∨ StoreFailed o frame) ∧
        ¬OcspRejects env o frame ∧ ¬SourceMissing o := by
  constructor
  · intro h
    refine ⟨fun hlocal => h.noneRevoked _ (localCrl_outcome.1.mpr hlocal),
      fun hcallback => h.noneRevoked _ (callback_outcome.1.mpr hcallback), ?_, ?_, ?_⟩
    · have hstore : ¬ StoreRevoked o frame := fun hstore => h.noneRevoked _ (store_outcome.1.mpr hstore)
      rintro (hrevoked | hfailed)
      · exact hstore hrevoked
      · cases (h.available _ (store_outcome.2.mpr ⟨hfailed, hstore⟩)).1
    · intro hocsp
      rcases ocsp_rejects_iff.mp hocsp with hrevoked | ⟨hunavailable, hclosed⟩
      · exact h.noneRevoked _ hrevoked
      · rw [(h.available _ hunavailable).2] at hclosed
        cases hclosed
    · intro hmissing
      obtain ⟨hmode, hnone⟩ := (@sourceMissing_iff N pf env frame o).mp hmissing
      obtain ⟨source, hsource⟩ := h.present hmode
      exact hsource (hnone source)
  · rintro ⟨hlocal, hcallback, hstore, hocsp, hmissing⟩
    rw [not_or] at hstore
    rw [ocsp_rejects_iff, not_or] at hocsp
    refine ⟨?_, ?_, ?_⟩
    · intro source
      cases source with
      | localCrl => exact mt localCrl_outcome.1.mp hlocal
      | callback => exact mt callback_outcome.1.mp hcallback
      | caStore => exact mt store_outcome.1.mp hstore.1
      | ocsp => exact hocsp.1
    · intro source hunavailable
      cases source with
      | localCrl => exact absurd hunavailable localCrl_outcome.2
      | callback => exact absurd hunavailable callback_outcome.2
      | caStore => exact absurd (store_outcome.2.mp hunavailable).1 hstore.2
      | ocsp =>
        refine ⟨rfl, ?_⟩
        rw [← Bool.not_eq_false]
        exact fun hclosed => hocsp.2 ⟨hunavailable, hclosed⟩
    · intro hmode
      by_contra hnone
      refine hmissing ((@sourceMissing_iff N pf env frame o).mpr ⟨hmode, fun source => ?_⟩)
      exact not_not.mp fun hsource => hnone ⟨source, hsource⟩

/-! ### The whole verification -/

theorem andThen_assoc (r s t : IdentVerifyResult) : (r.andThen s).andThen t = r.andThen (s.andThen t) := by
  unfold IdentVerifyResult.andThen
  cases hr : r.valid <;> simp [hr]

/-- The issuer and the signature, and the chain behind them. -/
theorem checkIssuer_andThen_explains {now : Time} (hphase3 : v.options.phase3Enforcement = false) :
    Explains env v frame vctx 2 4 ((checkIssuer pf v.options frame).andThen (checkChain env v frame now)) := by
  cases hkey : v.options.trustedCaPublicKeys frame.issuedBy with
  | none =>
    have hnot : ¬ IssuerTrusted v.options frame := by
      rintro ⟨keyText, h⟩
      rw [hkey] at h
      cases h
    have hfail : (checkIssuer pf v.options frame).andThen (checkChain env v frame now) =
        fail 2 errCertUntrustedIssuer ("issuer '" ++ frame.issuedBy ++ "' is not in the trusted issuers list") := by
      rw [checkIssuer, hkey]
      rfl
    rw [hfail]
    refine ⟨iff_of_false Bool.false_ne_true fun h => hnot (h 2 (by decide) (by decide)), fun _ => ?_⟩
    exact ⟨2, by decide, by decide, hnot, fun earlier hlow hhigh => by omega, .inl rfl⟩
  | some keyText =>
    have hissuer : checkIssuer pf v.options frame = checkSignature pf keyText frame := by rw [checkIssuer, hkey]
    rw [hissuer]
    have hthree : Explains env v frame vctx 3 4
        ((checkSignature pf keyText frame).andThen (checkChain env v frame now)) :=
      Decides.explains ((checkSignature_decides hkey).andThen fun _ => checkChain_decides hphase3)
    have htwo : Explains env v frame vctx 2 3 passed := Decides.explains (decides_passed ⟨keyText, hkey⟩)
    have hboth := htwo.andThen (Nat.le_succ 2) (Nat.le_succ 3) hthree
    exact hboth

/-- A frame is accepted exactly if the condition of every step holds, and otherwise the first step whose
condition does not hold is named, unless a callback names its own. -/
theorem verifyFull_explains (hslash : ∀ c, pf.toLower c = '/' ↔ c = '/') (v : NipIdentVerifier pf)
    (frame : IdentFrame N) (vctx : Option VerifyContext) (hphase3 : v.options.phase3Enforcement = false)
    (htarget : Ascii (vctx.getD {}).targetNodePath)
    (hpatterns : ∀ nodes, scopeNodes frame.scope = some nodes → ∀ p ∈ nodes, Ascii p) :
    Explains env v frame (vctx.getD {}) 1 7 (v.verifyFull env frame (vctx.getD {})) := by
  have hone : Explains env v frame (vctx.getD {}) 1 2 _ := Decides.explains (checkExpiry_decides _)
  have hthree := @checkIssuer_andThen_explains N pf env v frame (vctx.getD {})
    (if (vctx.getD {}).asOf = 0 then env.clock else (vctx.getD {}).asOf) hphase3
  have hfour : Explains env v frame (vctx.getD {}) 4 5 (checkRevocation pf env v.options frame) :=
    .of_step (checkRevocation_valid_iff.trans notRevoked_iff.symm) checkRevocation_blames
  have hfive : Explains env v frame (vctx.getD {}) 5 6 (checkCapabilities (vctx.getD {}).requiredCapabilities frame) :=
    Decides.explains (checkCapabilities_decides _)
  have hsix : Explains env v frame (vctx.getD {}) 6 7 (checkTarget pf (vctx.getD {}).targetNodePath frame) :=
    Decides.explains (checkTarget_decides hslash htarget hpatterns)
  have hall := hone.andThen (by decide) (by decide) (hthree.andThen (by decide) (by decide)
    (hfour.andThen (by decide) (by decide) (hfive.andThen (by decide) (by decide) hsix)))
  rw [andThen_assoc] at hall
  exact hall

end FullVerification

/-! ### An agent of one node -/

def issuerIdentity : NipIdentity kelvinPlatform.ed := ⟨()⟩

def agentRecord : NipCertRecord :=
  { nid := "urn:nps:agent:ca.example.com:a", entityType := "agent", serial := "0x1", pubKey := "ed25519:AA",
    issuedAt := 0, expiresAt := 0 }

/-- Trusts one issuer, asks two of the sources of revocation and accepts every chain. -/
def agentVerifier : NipIdentVerifier kelvinPlatform where
  options :=
    { trustedCaPublicKeys := fun issuer =>
        if issuer = "urn:nps:org:ca.example.com" then some issuerIdentity.pubKeyString else none
      trustedX509Roots := [[]]
      localRevokedSerials := some ["0x2"]
      revocationStore := some fun serial => (if serial = agentRecord.serial then some agentRecord else none, false)
      revocationMode := nipRevocationRequired }
  x509Verifier := some fun _ _ _ _ => { valid := true }

def unsignedAgent : IdentFrame JsonNumber :=
  { nid := "urn:nps:agent:ca.example.com:a", pubKey := "ed25519:AA", issuedBy := "urn:nps:org:ca.example.com",
    expiresAt := "2030-01-01T00:00:00Z", serial := "0x1", capabilities := ["nwp:query", "nwp:invoke"],
    scope := some ((∅ : FrameDict JsonNumber).insert "nodes" (.array [.string "nwp://a/*"])),
    certFormat := some certFormatV2X509 }

def signedAgent : IdentFrame JsonNumber :=
  { unsignedAgent with signature := some (issuerIdentity.sign kelvinPlatform.fmt unsignedAgent.unsignedDict) }

def silentEnv : VerifierEnv where
  clock := 1
  ocsp _ := .transportError []

def queryOf (path : GoString) : VerifyContext := { requiredCapabilities := ["nwp:query"], targetNodePath := path }

theorem ascii_ofString {text : String} (h : text.toList.all (·.toNat < 128) = true) : Ascii (ofString text) := by
  intro r hr
  obtain ⟨c, hc, rfl⟩ := mem_map.mp hr
  exact ⟨c, rfl, of_decide_eq_true (all_eq_true.mp h c hc)⟩

theorem scopeNodes_signedAgent {nodes : List GoString} (h : scopeNodes signedAgent.scope = some nodes) :
    ∀ p ∈ nodes, Ascii p := by
  have hnodes : scopeNodes signedAgent.scope = some [("nwp://a/*" : GoString)] := rfl
  cases hnodes.symm.trans h
  intro p hp
  rw [mem_singleton.mp hp]
  exact ascii_ofString (by decide)

/-- The agent passes the six steps on a path of its node, and the last one stops it on another. -/
theorem signed_agent_explained :
    (agentVerifier.verifyFull silentEnv signedAgent (queryOf "nwp://A/x")).valid = true ∧
    Explains silentEnv agentVerifier signedAgent (queryOf "nwp://A/x") 1 7
      (agentVerifier.verifyFull silentEnv signedAgent (queryOf "nwp://A/x")) ∧
    (agentVerifier.verifyFull silentEnv signedAgent (queryOf "nwp://b/x")).stepFailed = 6 ∧
    Explains silentEnv agentVerifier signedAgent (queryOf "nwp://b/x") 1 7
      (agentVerifier.verifyFull silentEnv signedAgent (queryOf "nwp://b/x")) := by
  refine ⟨by decide +kernel, ?_, by decide +kernel, ?_⟩
  · exact verifyFull_explains kelvinToLower_eq_slash agentVerifier signedAgent (some (queryOf "nwp://A/x")) rfl
      (ascii_ofString (by decide)) fun _ => scopeNodes_signedAgent
  · exact verifyFull_explains kelvinToLower_eq_slash agentVerifier signedAgent (some (queryOf "nwp://b/x")) rfl
      (ascii_ofString (by decide)) fun _ => scopeNodes_signedAgent

end NpsSdk.Nip
