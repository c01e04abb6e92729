import NpsSdk.NcpAgreement
import NpsSdk.RetryLoop

/-! Reconnecting across a transfer of ownership. The connector goes on to another attempt after errors it
recognises by their Go type. A server that refuses the handshake because it is no longer the owner is
reported by the client with a type the connector does not look for. -/

open NpsSdk.Core

namespace NpsSdk.Ncp

def errNidMismatch : GoString := "NCP-NID-MISMATCH"

/-! ### Connecting -/

structure NcpEndpoint where
  host : GoString
  port : UInt16

/-- What becomes of a connection. -/
inductive ServerBehaviour where
  | refused (text : GoString)
  | preambleLost (text : GoString)
  | helloLost (text : GoString)
  | answers (conn : Conn)

section

variable {T : Type} (codec : NpsFrameCodec T) (hello : HelloFrame)

/-- `NcpNativeClient.Connect`. -/
def clientConnect : ServerBehaviour → Except GoError (NcpSession T)
  | .refused text => .error (.op text)
  | .preambleLost text => .error (.op text)
  | .helloLost text => do
      let _ ← handshakeRequest codec hello
      .error (.op text)
  | .answers conn => (handshake codec hello conn).map (·.1)

end

def isFailoverShaped : GoError → Bool
  | .protocol code _ _ => decide (code = errNidMismatch)
  | .op _ => true
  | .eof => true
  | .unexpectedEOF => true
  | _ => false

structure FailoverConnector where
  maxAttempts : Nat
  pos : 0 < maxAttempts

/-- The world a connector runs in, at each attempt. -/
structure FailoverWorld where
  ctxErr : Nat → Option GoError
  resolveActive : Nat → Except GoError NcpEndpoint
  server : Nat → NcpEndpoint → ServerBehaviour

section

variable {T : Type} (codec : NpsFrameCodec T) (hello : HelloFrame) (w : FailoverWorld)

def FailoverWorld.round (attempt : Nat) : Round NcpEndpoint (NcpSession T) GoError :=
  match w.ctxErr attempt with
  | some e => .halted e
  | none =>
    match w.resolveActive attempt with
    | .error e => .halted e
    | .ok ep => .tried ep (clientConnect codec hello (w.server attempt ep))

def FailoverConnector.connect (c : FailoverConnector) :
    List (Round NcpEndpoint (NcpSession T) GoError) × Except GoError (NcpSession T) :=
  retryLoop isFailoverShaped (w.round codec hello) (c.maxAttempts - 1)

/-! ### What calls for another attempt -/

def isTransportError : GoError → Bool
  | .op _ => true
  | .eof => true
  | .unexpectedEOF => true
  | _ => false

def refusalCode : GoError → Option GoString
  | .handshake code _ => some code
  | .protocol code _ _ => some code
  | _ => none

def shouldRetry (e : GoError) : Bool :=
  isTransportError e || decide (refusalCode e = some errNidMismatch)

theorem shouldRetry_of_isFailoverShaped (e : GoError) (h : isFailoverShaped e = true) : shouldRetry e = true := by
  cases e with
  | protocol =>
    rw [shouldRetry, refusalCode, of_decide_eq_true h, decide_eq_true rfl, Bool.or_true]
  | op | eof | unexpectedEOF => rfl
  | text | frame | codec | encoder | preamble | handshake => cases h

/-- The connector passes over a refusal of the handshake, and nothing else. -/
theorem missed_iff (e : GoError) : (shouldRetry e = true ∧ isFailoverShaped e = false) ↔
    ∃ message, e = .handshake errNidMismatch message := by
  constructor
  · rintro ⟨hretry, hshape⟩
    cases e with
    | handshake code message =>
      have hcode : some code = some errNidMismatch := of_decide_eq_true hretry
      exact ⟨message, by rw [Option.some.inj hcode]⟩
    | protocol code =>
      have hcode : some code = some errNidMismatch := of_decide_eq_true hretry
      exact absurd (Option.some.inj hcode) (of_decide_eq_false hshape)
    | op | eof | unexpectedEOF => cases hshape
    | text | frame | codec | encoder | preamble => cases hretry
  · rintro ⟨message, rfl⟩
    exact ⟨rfl, rfl⟩

end

/-! ### Where a refusal comes from -/

def NotRefusal (e : GoError) : Prop := ∀ code message, e ≠ .handshake code message

def NoRefusal {α : Type} (x : Except GoError α) : Prop := ∀ e, x = .error e → NotRefusal e

section Refusal

variable {α β : Type}

theorem noRefusal_ok (a : α) : NoRefusal (.ok a : Except GoError α) := nofun

theorem noRefusal_error {e : GoError} (h : NotRefusal e) : NoRefusal (.error e : Except GoError α) := by
  intro e' he
  cases he
  exact h

theorem NoRefusal.bind {x : Except GoError α} {f : α → Except GoError β} (hx : NoRefusal x)
    (hf : ∀ a, NoRefusal (f a)) : NoRefusal (x >>= f) := by
  cases x with
  | error e => exact noRefusal_error (hx e rfl)
  | ok a => exact hf a

theorem noRefusal_ite {c : Prop} [Decidable c] {x y : Except GoError α} (hx : NoRefusal x)
    (hy : NoRefusal y) : NoRefusal (if c then x else y) := by
  split_ifs
  · exact hx
  · exact hy

theorem noRefusal_codec (msg : GoString) : NoRefusal (.error (.codec msg) : Except GoError α) :=
  noRefusal_error nofun

theorem noRefusal_mapCodec {ε : Type} (x : Except ε α) (f : ε → GoString) :
    NoRefusal (x.mapError fun e => .codec (f e)) := by
  cases x with
  | error e => exact noRefusal_codec _
  | ok a => exact noRefusal_ok a

theorem noRefusal_readFull (n : Nat) (r : Conn) : NoRefusal (readFull n r) := by
  rw [readFull]
  cases r.readFull n with
  | ok p => exact noRefusal_ok p
  | error e =>
    cases e with
    | eof | unexpectedEOF | failure => exact noRefusal_error fun _ _ h => by cases h

theorem noRefusal_parseFrameHeader (raw : Bytes) : NoRefusal (parseFrameHeader raw) := by
  unfold parseFrameHeader
  split
  · refine NoRefusal.bind ?_ fun ft => noRefusal_ite ?_ (noRefusal_ok _)
    · rw [frameTypeFromByte]
      split
      · exact noRefusal_ok _
      · exact noRefusal_error fun _ _ h => by cases h
    · split
      · exact noRefusal_ok _
      · exact noRefusal_error fun _ _ h => by cases h
  · exact noRefusal_error fun _ _ h => by cases h

theorem noRefusal_readFrame (conn : Conn) : NoRefusal (readFrame conn) := by
  refine NoRefusal.bind (NoRefusal.bind (noRefusal_readFull _ _) fun p => ?_) fun p => ?_
  · exact NoRefusal.bind (noRefusal_readFull _ _) fun q =>
      NoRefusal.bind (noRefusal_parseFrameHeader _) fun header => noRefusal_ok _
  · exact NoRefusal.bind (noRefusal_readFull _ _) fun q => noRefusal_ok _

theorem noRefusal_decodePrefix (payload : Bytes) : NoRefusal (decodePrefix payload) := by
  refine noRefusal_ite (noRefusal_codec _) (noRefusal_ite (noRefusal_codec _) (noRefusal_ite
    (noRefusal_codec _) (noRefusal_ite (noRefusal_codec _) (noRefusal_ite (noRefusal_codec _) ?_))))
  exact noRefusal_ok _

theorem noRefusal_readFloats (dim : Nat) (rest : Bytes) : NoRefusal (readFloats dim rest) := by
  induction dim generalizing rest with
  | zero => exact noRefusal_ok _
  | succ dim ih =>
    refine noRefusal_ite (noRefusal_codec _) ?_
    exact NoRefusal.bind (ih _) fun p => noRefusal_ok _

theorem noRefusal_readVectors (count : Nat) (rest : Bytes) : NoRefusal (readVectors count rest) := by
  induction count generalizing rest with
  | zero => exact noRefusal_ok _
  | succ count ih =>
    refine noRefusal_ite (noRefusal_codec _) (noRefusal_ite (noRefusal_codec _) (noRefusal_ite
      (noRefusal_codec _) ?_))
    exact NoRefusal.bind (noRefusal_readFloats _ _) fun p =>
      NoRefusal.bind (ih _) fun q => noRefusal_ok _

variable {T : Type}

theorem noRefusal_restore (metadata : FrameDict T) (vectors : List (List F32)) :
    NoRefusal (restoreVectorSearchVector metadata vectors) := by
  unfold restoreVectorSearchVector
  split
  · exact noRefusal_ok _
  split
  · exact noRefusal_ok _
  split
  · exact noRefusal_codec _
  split
  · exact noRefusal_codec _
  · exact noRefusal_ite (noRefusal_codec _) (noRefusal_ite (noRefusal_codec _)
      (noRefusal_ite (noRefusal_ok _) (noRefusal_codec _)))

theorem noRefusal_decodePayload (c : NpsFrameCodec T) (payload : Bytes) (tier : EncodingTier) :
    NoRefusal (c.decodePayload payload tier) := by
  refine noRefusal_ite (noRefusal_mapCodec _ _) (noRefusal_ite (noRefusal_mapCodec _ _)
    (noRefusal_ite ?_ (noRefusal_codec _)))
  refine NoRefusal.bind (noRefusal_decodePrefix _) fun p => ?_
  refine NoRefusal.bind (noRefusal_mapCodec _ _) fun metadata => ?_
  refine NoRefusal.bind (noRefusal_readVectors _ _) fun q => ?_
  exact noRefusal_ite (noRefusal_codec _) (noRefusal_restore _ _)

theorem noRefusal_decode (c : NpsFrameCodec T) (wire : Bytes) : NoRefusal (c.decode wire) := by
  refine NoRefusal.bind (noRefusal_parseFrameHeader _) fun header => ?_
  refine noRefusal_ite (noRefusal_error nofun) (noRefusal_ite (noRefusal_codec _) ?_)
  exact NoRefusal.bind (noRefusal_decodePayload _ _ _) fun dict => noRefusal_ok _

theorem noRefusal_handshakeRequest (c : NpsFrameCodec T) (hello : HelloFrame) :
    NoRefusal (handshakeRequest c hello) := by
  refine NoRefusal.bind (NoRefusal.bind ?_ fun payload => ?_) fun wire => noRefusal_ok _
  · change NoRefusal (jsonMarshal c.platform hello.toDict)
    rw [jsonMarshal]
    split
    · exact noRefusal_ok _
    · exact noRefusal_error fun _ _ h => by cases h
  · exact noRefusal_ite (noRefusal_codec _) (noRefusal_ok _)

def RefusesWith (codec : NpsFrameCodec T) (hello : HelloFrame) (conn : Conn) (code : GoString) : Prop :=
  ∃ request header payload rest frame, handshakeRequest codec hello = .ok request ∧
    readFrame conn = .ok ((header, payload), rest) ∧ header.frameType = .error ∧
    codec.decode (header.toBytes ++ payload) = .ok frame ∧ GoDict.str frame.2 "error_code" = code

theorem handshake_refused_iff {codec : NpsFrameCodec T} {hello : HelloFrame} {conn : Conn}
    {code : GoString} (hcode : code ≠ errHandshakeUnexpectedFrame) :
    (∃ message, handshake codec hello conn = .error (.handshake code message)) ↔
      RefusesWith codec hello conn code := by
  constructor
  · rintro ⟨message, h⟩
    cases hrequest : handshakeRequest codec hello with
    | error e =>
      rw [handshake, hrequest] at h
      cases h
      exact absurd rfl (noRefusal_handshakeRequest codec hello _ hrequest code message)
    | ok request =>
      cases hread : readFrame conn with
      | error e =>
        rw [handshake, hrequest, hread] at h
        cases h
        exact absurd rfl (noRefusal_readFrame conn _ hread code message)
      | ok p =>
        obtain ⟨⟨header, payload⟩, rest⟩ := p
        have hanswer : handshakeAnswer codec header payload = .error (.handshake code message) := by
          rw [handshake, hrequest, hread] at h
          cases hresult : handshakeAnswer codec header payload with
          | error e =>
            simp only [bind, Except.bind, hresult] at h
            cases h
            rfl
          | ok s =>
            simp only [bind, Except.bind, hresult] at h
            cases h
        rw [handshakeAnswer] at hanswer
        split_ifs at hanswer with herror hcaps
        · split at hanswer
          · rename_i e hdecode
            cases hanswer
            exact absurd rfl (noRefusal_decode codec _ _ hdecode code message)
          · rename_i ft dict hdecode
            cases hanswer
            exact ⟨request, header, payload, rest, _, hrequest, hread, herror, hdecode, rfl⟩
        · cases hanswer
          exact absurd rfl hcode
        · cases hdecode : codec.decode (header.toBytes ++ payload) with
          | error e =>
            rw [hdecode] at hanswer
            cases hanswer
            exact absurd rfl (noRefusal_decode codec _ _ hdecode code message)
          | ok frame =>
            rw [hdecode] at hanswer
            cases hanswer
  · rintro ⟨request, header, payload, rest, frame, hrequest, hread, herror, hdecode, rfl⟩
    refine ⟨GoDict.str frame.2 "message", ?_⟩
    rw [handshake, hrequest, hread]
    simp only [bind, Except.bind, handshakeAnswer, herror, hdecode]
    rfl

theorem clientConnect_refused_iff {codec : NpsFrameCodec T} {hello : HelloFrame} {b : ServerBehaviour} :
    (∃ message, clientConnect codec hello b = .error (.handshake errNidMismatch message)) ↔
      ∃ conn, b = .answers conn ∧ RefusesWith codec hello conn errNidMismatch := by
  cases b with
  | refused | preambleLost => exact ⟨nofun, nofun⟩
  | helloLost text =>
    constructor
    · rintro ⟨message, h⟩
      rw [clientConnect] at h
      cases hrequest : handshakeRequest codec hello with
      | error e =>
        rw [hrequest] at h
        cases h
        exact absurd rfl (noRefusal_handshakeRequest codec hello _ hrequest _ message)
      | ok =>
        rw [hrequest] at h
        cases h
    · nofun
  | answers conn =>
    have hmap : ∀ message, clientConnect codec hello (.answers conn) =
        .error (.handshake errNidMismatch message) ↔
        handshake codec hello conn = .error (.handshake errNidMismatch message) := by
      intro message
      rw [clientConnect]
      cases handshake codec hello conn with
      | error e =>
        constructor
        · intro h
          cases h
          rfl
        · intro h
          cases h
          rfl
      | ok p => exact ⟨nofun, nofun⟩
    simp only [hmap]
    rw [handshake_refused_iff (by decide)]
    constructor
    · intro h
      exact ⟨conn, rfl, h⟩
    · rintro ⟨conn', hconn, h⟩
      cases hconn
      exact h

/-! ### The connector -/

variable (codec : NpsFrameCodec T) (hello : HelloFrame) (w : FailoverWorld)

/-- At an attempt the server refuses the handshake because it is no longer the owner. -/
def FailoverWorld.RefusesAt (attempt : Nat) : Prop :=
  w.ctxErr attempt = none ∧ ∃ ep conn, w.resolveActive attempt = .ok ep ∧
    w.server attempt ep = .answers conn ∧ RefusesWith codec hello conn errNidMismatch

theorem FailoverWorld.missed_round_iff (attempt : Nat) : ((w.round codec hello attempt).retriable shouldRetry = true ∧
      (w.round codec hello attempt).retriable isFailoverShaped = false) ↔ w.RefusesAt codec hello attempt := by
  rw [round, RefusesAt]
  cases w.ctxErr attempt with
  | some e => exact ⟨nofun, nofun⟩
  | none =>
    cases w.resolveActive attempt with
    | error e => exact ⟨nofun, nofun⟩
    | ok ep =>
      have hrefused : (∃ message, clientConnect codec hello (w.server attempt ep) =
          .error (.handshake errNidMismatch message)) ↔ ∃ conn, w.server attempt ep = .answers conn ∧
            RefusesWith codec hello conn errNidMismatch := clientConnect_refused_iff
      dsimp only
      constructor
      · intro hmissed
        refine ⟨rfl, ep, ?_⟩
        cases hconnect : clientConnect codec hello (w.server attempt ep) with
        | ok s =>
          rw [hconnect] at hmissed
          cases hmissed.1
        | error e =>
          rw [hconnect] at hmissed
          obtain ⟨message, rfl⟩ := (missed_iff e).mp hmissed
          obtain ⟨conn, hserver, hrefuses⟩ := hrefused.mp ⟨message, hconnect⟩
          exact ⟨conn, rfl, hserver, hrefuses⟩
      · rintro ⟨-, ep', conn, hep, hserver, hrefuses⟩
        cases hep
        obtain ⟨message, hconnect⟩ := hrefused.mpr ⟨conn, hserver, hrefuses⟩
        rw [hconnect]
        exact (missed_iff _).mpr ⟨message, rfl⟩

/-- The connector does what it should exactly if no attempt but the last one allowed, come to after errors
the connector recognises, is refused by a server that is no longer the owner. -/
theorem failover_follows_iff (c : FailoverConnector) :
    Follows shouldRetry (w.round codec hello) (c.maxAttempts - 1) (c.connect codec hello w) ↔
      ∀ k, k + 1 < c.maxAttempts → (∀ i < k, (w.round codec hello i).retriable isFailoverShaped = true) →
        ¬ w.RefusesAt codec hello k := by
  rw [FailoverConnector.connect, follows_retryLoop_iff shouldRetry_of_isFailoverShaped]
  constructor
  · intro hnever k hk hearlier hrefuses
    obtain ⟨hretry, hshape⟩ := (w.missed_round_iff codec hello k).mpr hrefuses
    rw [hnever k (by omega) hearlier hretry] at hshape
    cases hshape
  · intro hnever k hk hearlier hretry
    by_contra hshape
    rw [Bool.not_eq_true] at hshape
    exact hnever k (by omega) hearlier ((w.missed_round_iff codec hello k).mp ⟨hretry, hshape⟩)

end Refusal

/-! ### A server that has handed over -/

def movedFrame : ErrorFrame Empty := { errorCode := errNidMismatch, message := [], detail := .nil }

def movedFrame_sent : JsonSent movedFrame.toDict := ⟨_, rfl, by decide⟩

set_option maxRecDepth 1000 in
theorem movedFrame_encoded : ∃ wire, jsonSession.codec.encode .error movedFrame.toDict encodingTierJSON true =
    .ok wire := ⟨_, rfl⟩

theorem movedFrame_code : movedFrame.toDict["error_code"]? = some (.string errNidMismatch) := by
  simp only [ErrorFrame.toDict, movedFrame, GoDict.getElem?_setIf, GoMap.ofList, List.foldl_cons,
    List.foldl_nil, GoMap.getElem?_insert, String.reduceEq, if_true, if_false]

/-- The frame refuses every client that can send its hello. -/
theorem movedFrame_refuses {wire : Bytes}
    (hwire : jsonSession.codec.encode .error movedFrame.toDict encodingTierJSON true = .ok wire) :
    RefusesWith jsonSession.codec jsonHello (Stream.prepend wire ⟨[], .eof⟩) errNidMismatch := by
  obtain ⟨⟨request, hrequest⟩, -⟩ := jsonHello_short
  obtain ⟨payload, frame, -, hread, hdecode⟩ := movedFrame_sent.decodes (by decide) hwire ⟨[], .eof⟩
  refine ⟨request, _, payload, _, frame, hrequest, hread, rfl, hdecode, ?_⟩
  have hcarried := (carried_of_decode (.inl rfl) hwire hread hdecode).2
  rw [GoDict.str, GoDict.optStr, GoDict.get, hcarried.string movedFrame_code]
  rfl

def answeringWorld (wire : Bytes) : FailoverWorld :=
  { ctxErr := fun _ => none
    resolveActive := fun _ => .ok ⟨"anchor", 17433⟩
    server := fun _ _ => .answers (Stream.prepend wire ⟨[], .eof⟩) }

/-- With two attempts allowed, a server that has handed over is not resolved anew: the connector stops
after one round. -/
theorem handover_not_retried : ∃ wire, (answeringWorld wire).RefusesAt jsonSession.codec jsonHello 0 ∧
    ¬ Follows shouldRetry ((answeringWorld wire).round jsonSession.codec jsonHello) 1
      ((FailoverConnector.mk 2 (by decide)).connect jsonSession.codec jsonHello (answeringWorld wire)) := by
  obtain ⟨wire, hwire⟩ := movedFrame_encoded
  have hrefuses : (answeringWorld wire).RefusesAt jsonSession.codec jsonHello 0 :=
    ⟨rfl, _, _, rfl, rfl, movedFrame_refuses hwire⟩
  refine ⟨wire, hrefuses, fun hfollows => ?_⟩
  have hnever := (follows_retryLoop_iff shouldRetry_of_isFailoverShaped).mp hfollows
  obtain ⟨hretry, hshape⟩ :=
    ((answeringWorld wire).missed_round_iff jsonSession.codec jsonHello 0).mpr hrefuses
  rw [hnever 0 (by decide) nofun hretry] at hshape
  cases hshape

end NpsSdk.Ncp
