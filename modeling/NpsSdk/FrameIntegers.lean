import NpsSdk.CoreCarriage
import NpsSdk.NcpFrames
import NpsSdk.NdpFrames
import NpsSdk.NopFrames
import NpsSdk.NwpFrames

/-! Which numbers a frame is read with, whoever wrote it. A number below 2^53 may stand on the wire in any
code that holds it, and a decoder gives the Go type of the code; each field has a reader that names some of
these types and takes something else for the rest. -/

open NpsSdk.Core

namespace NpsSdk

open GoDict Ndp Nwp
open IntKind

/-- The encodings of a number: those of MessagePack, and JSON. -/
inductive WireCode where
  | fixint | uint8 | uint16 | uint32 | uint64 | int8 | int16 | int32 | int64 | json
  deriving DecidableEq

/-- What a decoder gives for a number in some code. -/
inductive Decoded {T : Type} (P : Platform T) (n : Nat) : WireCode → GoAny T → Prop
  | fixint (h : int8.Holds n) : Decoded P n .fixint (.int .int8 ⟨n, h⟩)
  | uint8 (h : uint8.Holds n) : Decoded P n .uint8 (.int .uint8 ⟨n, h⟩)
  | uint16 (h : uint16.Holds n) : Decoded P n .uint16 (.int .uint16 ⟨n, h⟩)
  | uint32 (h : uint32.Holds n) : Decoded P n .uint32 (.int .uint32 ⟨n, h⟩)
  | uint64 (h : uint64.Holds n) : Decoded P n .uint64 (.int .uint64 ⟨n, h⟩)
  | int8 (h : int8.Holds n) : Decoded P n .int8 (.int .int8 ⟨n, h⟩)
  | int16 (h : int16.Holds n) : Decoded P n .int16 (.int .int16 ⟨n, h⟩)
  | int32 (h : int32.Holds n) : Decoded P n .int32 (.int .int32 ⟨n, h⟩)
  | int64 (h : int64.Holds n) : Decoded P n .int64 (.int .int64 ⟨n, h⟩)
  | json {v : GoAny T} (h : ofJson P (.number (intNumber n)) = some v) : Decoded P n .json v

/-! ### Readers -/

section

variable {T : Type} {P : Platform T} {n : Nat} {code : WireCode} {v : GoAny T}

theorem toNat_ofInt_natCast (h : n < 2 ^ 64) : (UInt64.ofInt n).toNat = n := by
  rw [UInt64.ofInt, Int.emod_eq_of_lt (Int.natCast_nonneg _) (by omega), Int.toNat_natCast,
    UInt64.toNat_ofNat_of_lt' h]

theorem toNat_ofInt32_natCast (h : n < 2 ^ 32) : (UInt32.ofInt n).toNat = n := by
  rw [UInt32.ofInt, Int.emod_eq_of_lt (Int.natCast_nonneg _) (by omega), Int.toNat_natCast,
    UInt32.toNat_ofNat_of_lt' h]

theorem toInt_ofInt_natCast (h : n < 2 ^ 63) : (Int64.ofInt n).toInt = n :=
  Int64.toInt_ofInt_of_le (by omega) (by omega)

section

variable (hn : n < 2 ^ 53)
include hn

theorem trunc_natCast : (F64.ofInt n).trunc = n := F64.trunc_ofInt (n := (n : Int)) hn

theorem isFinite_natCast : (F64.ofInt n).isFinite = true := F64.isFinite_ofInt (n := (n : Int)) hn

theorem eq_float64_of_ofJson (h : ofJson P (.number (intNumber n)) = some v) : v = .float64 (F64.ofInt n) := by
  rw [ofJson, P.parseFloat_int n (by omega)] at h
  exact (Option.some.inj h).symm

theorem uint64OfFloat_natCast : (P.uint64OfFloat (F64.ofInt n)).toNat = n := by
  rw [Platform.uint64OfFloat, trunc_natCast hn, if_pos ⟨isFinite_natCast hn, by omega, by omega⟩,
    toNat_ofInt_natCast (by omega)]

theorem uint32OfFloat_natCast (h : n < 2 ^ 32) : (P.uint32OfFloat (F64.ofInt n)).toNat = n := by
  rw [Platform.uint32OfFloat, trunc_natCast hn, if_pos ⟨isFinite_natCast hn, by omega, by omega⟩,
    toNat_ofInt32_natCast h]

theorem int64OfFloat_natCast : (P.int64OfFloat (F64.ofInt n)).toInt = n := by
  rw [Platform.int64OfFloat, trunc_natCast hn, if_pos ⟨isFinite_natCast hn, by omega, by omega⟩,
    toInt_ofInt_natCast (by omega)]

end

/-- A reader gives the number for some codes and one and the same thing for the others. -/
def Reads (P : Platform T) (n : Nat) (takes : List WireCode) (otherwise : Option Int)
    (read : GoAny T → Option Int) : Prop :=
  ∀ ⦃code v⦄, Decoded P n code v → read v = if code ∈ takes then some (n : Int) else otherwise

def unsignedCodes : List WireCode := [.uint64, .int64, .json]

def signedCodes : List WireCode := [.int64, .json]

def uint32Codes : List WireCode := [.uint32, .json]

/-- What the functions have in common that read a `uint64`. -/
structure IsUint64Reader (P : Platform T) (read : GoAny T → UInt64) : Prop where
  int64 : ∀ n, read (.int .int64 n) = UInt64.ofInt n.1
  uint64 : ∀ n, read (.int .uint64 n) = UInt64.ofInt n.1
  float64 : ∀ x, read (.float64 x) = P.uint64OfFloat x
  other : ∀ kind n, kind ∉ [int, .int64, .uint64] → read (.int kind n) = 0

theorem IsUint64Reader.reads {read : GoAny T → UInt64} (hread : IsUint64Reader P read) (hn : n < 2 ^ 53) :
    Reads P n unsignedCodes (some 0) fun v => some (read v).toNat := by
  have hnarrow : ∀ (kind : IntKind) (m : kind.Value), kind ∉ [int, .int64, .uint64] →
      some ((read (.int kind m)).toNat : Int) = some 0 := by
    intro kind m hkind
    rw [hread.other kind m hkind]
    rfl
  intro code v h
  cases h with
  | uint64 => exact congrArg (fun m : Nat => some (m : Int)) (by
      rw [hread.uint64, toNat_ofInt_natCast (by omega)])
  | int64 => exact congrArg (fun m : Nat => some (m : Int)) (by
      rw [hread.int64, toNat_ofInt_natCast (by omega)])
  | json h => exact congrArg (fun m : Nat => some (m : Int)) (by
      rw [eq_float64_of_ofJson hn h, hread.float64, uint64OfFloat_natCast hn])
  | fixint | uint8 | uint16 | uint32 | int8 | int16 | int32 => exact hnarrow _ _ (by decide)

theorem isUint64Reader_ncp : IsUint64Reader P (Ncp.toUint64 P) :=
  ⟨fun _ => rfl, fun _ => rfl, fun _ => rfl, fun kind _ h => by
    cases kind <;> first | rfl | exact absurd h (by decide)⟩

theorem isUint64Reader_ndp : IsUint64Reader P (toUint64 P) :=
  ⟨fun _ => rfl, fun _ => rfl, fun _ => rfl, fun kind _ h => by
    cases kind <;> first | rfl | exact absurd h (by decide)⟩

theorem isUint64Reader_nop : IsUint64Reader P (Nop.toUint64 P) :=
  ⟨fun _ => rfl, fun _ => rfl, fun _ => rfl, fun kind _ h => by
    cases kind <;> first | rfl | exact absurd h (by decide)⟩

theorem reads_toInt64 (hn : n < 2 ^ 53) : Reads P n signedCodes (some 0) fun v => some (Nop.toInt64 P v).toInt := by
  intro code v h
  cases h with
  | int64 => exact congrArg some (toInt_ofInt_natCast (by omega))
  | json h =>
    rw [eq_float64_of_ofJson hn h]
    exact congrArg some (int64OfFloat_natCast hn)
  | fixint | uint8 | uint16 | uint32 | uint64 | int8 | int16 | int32 => rfl

theorem reads_intValue (hn : n < 2 ^ 53) : Reads P n signedCodes none fun v => (intValue P v).map Int64.toInt := by
  intro code v h
  cases h with
  | int64 => exact congrArg some (toInt_ofInt_natCast (by omega))
  | json h =>
    rw [eq_float64_of_ofJson hn h]
    exact congrArg some (int64OfFloat_natCast hn)
  | fixint | uint8 | uint16 | uint32 | uint64 | int8 | int16 | int32 => rfl

end

/-! ### Fields -/

inductive IntField where
  | anchorTtl | streamSeq | capsCount | capsTokenEst
  | helloMaxFramePayload | helloMaxConcurrentStreams | helloPingIntervalMs
  | handshakeMaxFramePayload | handshakeMaxConcurrentStreams
  | announceTtl | announceHeartbeatIntervalMs | announceClusterEpoch | announceGraphSeq
  | graphTtl | edgeLatencyMs
  | subscribeHeartbeatIntervalMs | subscribeMaxEvents | actionTimeoutMs
  | queryTokenBudget | queryLimit | queryOffset | queryDepth
  | taskTimeoutMs | taskDepth | taskResultTtlSeconds
  | syncMinRequired | syncTimeoutMs
  | alignStreamSeq | alignStreamWindowSize | alignStreamAckSeq | alignStreamNakSeq

namespace IntField

def key : IntField → String
  | .anchorTtl | .announceTtl | .graphTtl => "ttl"
  | .streamSeq | .alignStreamSeq => "seq"
  | .capsCount => "count"
  | .capsTokenEst => "token_est"
  | .helloMaxFramePayload | .handshakeMaxFramePayload => "max_frame_payload"
  | .helloMaxConcurrentStreams | .handshakeMaxConcurrentStreams => "max_concurrent_streams"
  | .helloPingIntervalMs => "ping_interval_ms"
  | .announceHeartbeatIntervalMs | .subscribeHeartbeatIntervalMs => "heartbeat_interval_ms"
  | .announceClusterEpoch => "cluster_epoch"
  | .announceGraphSeq => "graph_seq"
  | .edgeLatencyMs => "latency_ms"
  | .subscribeMaxEvents => "max_events"
  | .actionTimeoutMs | .taskTimeoutMs | .syncTimeoutMs => "timeout_ms"
  | .queryTokenBudget => "token_budget"
  | .queryLimit => "limit"
  | .queryOffset => "offset"
  | .queryDepth | .taskDepth => "depth"
  | .taskResultTtlSeconds => "result_ttl_seconds"
  | .syncMinRequired => "min_required"
  | .alignStreamWindowSize => "window_size"
  | .alignStreamAckSeq => "ack_seq"
  | .alignStreamNakSeq => "nak_seq"

section

variable {T : Type} (P : Platform T)

/-- What the field holds in the frame read from a dictionary, or in the edge read from a map. -/
def read (d : FrameDict T) : IntField → Option Int
  | .anchorTtl => some (Ncp.anchorFrameFromDict P d).ttl.toNat
  | .streamSeq => some (Ncp.streamFrameFromDict P d).seq.toNat
  | .capsCount => some (Ncp.capsFrameFromDict P d).count.toNat
  | .capsTokenEst => (Ncp.capsFrameFromDict P d).tokenEst.map (·.toNat)
  | .helloMaxFramePayload => some (Ncp.helloFrameFromDict P d).maxFramePayload.toNat
  | .helloMaxConcurrentStreams => some (Ncp.helloFrameFromDict P d).maxConcurrentStreams.toNat
  | .helloPingIntervalMs => some (Ncp.helloFrameFromDict P d).pingIntervalMs.toNat
  | .handshakeMaxFramePayload => (Ncp.ncpHandshakeCapsFrameFromDict P d).maxFramePayload.map (·.toNat)
  | .handshakeMaxConcurrentStreams =>
    (Ncp.ncpHandshakeCapsFrameFromDict P d).maxConcurrentStreams.map (·.toNat)
  | .announceTtl => some (announceFrameFromDict P d).ttl.toNat
  | .announceHeartbeatIntervalMs => some (announceFrameFromDict P d).heartbeatIntervalMs.toNat
  | .announceClusterEpoch => (announceFrameFromDict P d).clusterEpoch.map (·.toNat)
  | .announceGraphSeq => (announceFrameFromDict P d).graphSeq.map (·.toNat)
  | .graphTtl => some (graphFrameFromDict P d).ttl.toInt
  | .edgeLatencyMs => (ndpGraphEdgeFromMap P d).latencyMs.map (·.toInt)
  | .subscribeHeartbeatIntervalMs => (subscribeFrameFromDict P d).heartbeatIntervalMs.map (·.toNat)
  | .subscribeMaxEvents => (subscribeFrameFromDict P d).maxEvents.map (·.toNat)
  | .actionTimeoutMs => (actionFrameFromDict P d).timeoutMs.map (·.toNat)
  | .queryTokenBudget => (queryFrameFromDict P d).tokenBudget.map (·.toNat)
  | .queryLimit => (queryFrameFromDict P d).limit.map (·.toNat)
  | .queryOffset => (queryFrameFromDict P d).offset.map (·.toNat)
  | .queryDepth => (queryFrameFromDict P d).depth.map (·.toNat)
  | .taskTimeoutMs => (Nop.taskFrameFromDict P d).timeoutMs.map (·.toNat)
  | .taskDepth => (Nop.taskFrameFromDict P d).depth.map (·.toInt)
  | .taskResultTtlSeconds => some (Nop.taskFrameFromDict P d).resultTtlSeconds.toNat
  | .syncMinRequired => some (Nop.syncFrameFromDict P d).minRequired.toInt
  | .syncTimeoutMs => (Nop.syncFrameFromDict P d).timeoutMs.map (·.toNat)
  | .alignStreamSeq => some (Nop.alignStreamFrameFromDict P d).seq.toNat
  | .alignStreamWindowSize => (Nop.alignStreamFrameFromDict P d).windowSize.map (·.toNat)
  | .alignStreamAckSeq => (Nop.alignStreamFrameFromDict P d).ackSeq.map (·.toNat)
  | .alignStreamNakSeq => (Nop.alignStreamFrameFromDict P d).nakSeq.map (·.toNat)

end

def Holds {T : Type} (field : IntField) (n : Nat) (d : FrameDict T) : Prop :=
  ∃ (kind : IntKind) (h : kind.Holds n), d[field.key]? = some (.int kind ⟨n, h⟩)

/-- Some frame is written with the number in the field. An edge is written by the encoders as the struct it
is, and its latency is a number where it is set. -/
def Emits (T : Type) (n : Nat) (field : IntField) : Prop :=
  match field with
  | .anchorTtl => ∃ f : Ncp.AnchorFrame T, field.Holds n f.toDict
  | .streamSeq => ∃ f : Ncp.StreamFrame T, field.Holds n f.toDict
  | .capsCount | .capsTokenEst => ∃ f : Ncp.CapsFrame T, field.Holds n f.toDict
  | .helloMaxFramePayload | .helloMaxConcurrentStreams | .helloPingIntervalMs =>
    ∃ f : Ncp.HelloFrame, field.Holds n (f.toDict : FrameDict T)
  | .handshakeMaxFramePayload | .handshakeMaxConcurrentStreams =>
    ∃ f : Ncp.NcpHandshakeCapsFrame T, field.Holds n f.toDict
  | .announceTtl | .announceHeartbeatIntervalMs | .announceClusterEpoch | .announceGraphSeq =>
    ∃ f : Ndp.AnnounceFrame T, field.Holds n f.toDict
  | .graphTtl => ∃ ofNodes ofEdges, ∃ f : Ndp.GraphFrame T, field.Holds n (f.toDict ofNodes ofEdges)
  | .edgeLatencyMs => ∃ e : Ndp.NdpGraphEdge, e.latencyMs.map Int64.toInt = some (n : Int)
  | .subscribeHeartbeatIntervalMs | .subscribeMaxEvents => ∃ f : Nwp.SubscribeFrame T, field.Holds n f.toDict
  | .actionTimeoutMs => ∃ f : Nwp.ActionFrame T, field.Holds n f.toDict
  | .queryTokenBudget | .queryLimit | .queryOffset | .queryDepth =>
    ∃ f : Nwp.QueryFrame T, field.Holds n f.toDict
  | .taskTimeoutMs | .taskDepth | .taskResultTtlSeconds => ∃ f : Nop.TaskFrame T, field.Holds n f.toDict
  | .syncMinRequired | .syncTimeoutMs => ∃ f : Nop.SyncFrame, field.Holds n (f.toDict : FrameDict T)
  | .alignStreamSeq | .alignStreamWindowSize | .alignStreamAckSeq | .alignStreamNakSeq =>
    ∃ f : Nop.AlignStreamFrame T, field.Holds n f.toDict

/-- The codes whose Go type the reader of the field names. -/
def takes : IntField → List WireCode
  | .graphTtl | .edgeLatencyMs | .taskDepth | .syncMinRequired => signedCodes
  | .subscribeHeartbeatIntervalMs | .subscribeMaxEvents | .actionTimeoutMs => uint32Codes
  | _ => unsignedCodes

/-- What the field holds where the reader does not know the type. -/
def otherwise : IntField → Option Int
  | .anchorTtl | .taskResultTtlSeconds => some 3600
  | .helloMaxFramePayload => some 0xFFFF
  | .helloMaxConcurrentStreams => some 32
  | .announceTtl => some 300
  | .edgeLatencyMs | .subscribeHeartbeatIntervalMs | .subscribeMaxEvents | .actionTimeoutMs
  | .queryTokenBudget | .queryLimit | .queryOffset | .queryDepth => none
  | _ => some 0

/-- A zero stands for a member that is not set. -/
def zeroIsUnset : IntField → Bool
  | .anchorTtl | .taskResultTtlSeconds | .helloMaxFramePayload | .helloMaxConcurrentStreams
  | .announceTtl => true
  | _ => false

end IntField

section

variable {T : Type} {P : Platform T} {n : Nat} {code : WireCode} {v : GoAny T} {d : FrameDict T}
  {takes : List WireCode} {otherwise : Option Int} {key : String}

theorem GoDict.get_eq (h : d[key]? = some v) : get d key = v := by
  rw [get, h]
  rfl

def recovered (n : Nat) (code : WireCode) (takes : List WireCode) (zeroIsUnset : Bool)
    (otherwise : Option Int) : Option Int :=
  if code ∈ takes ∧ ¬ (n = 0 ∧ zeroIsUnset = true) then some (n : Int) else otherwise

theorem recovered_keeping_zero :
    recovered n code takes false otherwise = if code ∈ takes then some (n : Int) else otherwise := by
  simp [recovered]

section

variable (hcode : Decoded P n code v) (hd : d[key]? = some v)
include hcode hd

theorem Reads.member {read : GoAny T → Option Int} (h : Reads P n takes otherwise read) :
    read (get d key) = recovered n code takes false otherwise := by
  rw [get_eq hd, recovered_keeping_zero]
  exact h hcode

/-- A field that is a pointer. -/
theorem IsUint64Reader.pointer {read : GoAny T → UInt64} (hread : IsUint64Reader P read) (hn : n < 2 ^ 53) :
    (d[key]?.map read).map (fun m => (m.toNat : Int)) = recovered n code unsignedCodes false (some 0) := by
  rw [hd, recovered_keeping_zero]
  exact hread.reads hn hcode

theorem optInt64_eq (hn : n < 2 ^ 53) :
    (Nop.optInt64 P d key).map Int64.toInt = recovered n code signedCodes false (some 0) := by
  rw [Nop.optInt64, hd, recovered_keeping_zero]
  exact reads_toInt64 hn hcode

theorem intValue_getD_eq (hn : n < 2 ^ 53) :
    some ((intValue P (get d key)).getD 0).toInt = recovered n code signedCodes false (some 0) := by
  have hread := reads_intValue hn hcode
  rw [get_eq hd, recovered_keeping_zero]
  split_ifs at hread ⊢ with htaken
  · obtain ⟨m, hm, hvalue⟩ := Option.map_eq_some_iff.mp hread
    rw [hm, ← hvalue]
    rfl
  · rw [Option.map_eq_none_iff.mp hread]
    rfl

theorem IsUint64Reader.orDefault {read : GoAny T → UInt64} {default : UInt64}
    (hread : IsUint64Reader P read) (hn : n < 2 ^ 53) :
    some ((if read (get d key) = 0 then default else read (get d key)).toNat : Int) =
      recovered n code unsignedCodes true (some default.toNat) := by
  have hvalue := hread.reads hn hcode
  have hzero : read v = 0 ↔ (read v).toNat = 0 := UInt64.toNat_inj.symm
  rw [get_eq hd, recovered]
  by_cases hcode : code ∈ unsignedCodes
  · rw [if_pos hcode, Option.some.injEq] at hvalue
    by_cases hn0 : n = 0
    · rw [if_pos (hzero.mpr (by omega)), if_neg fun h => h.2 ⟨hn0, rfl⟩]
    · rw [if_neg fun h => hn0 (by have := hzero.mp h; omega), if_pos ⟨hcode, fun h => hn0 h.1⟩, hvalue]
  · rw [if_neg hcode, Option.some.injEq] at hvalue
    rw [if_pos (hzero.mpr (by omega)), if_neg fun h => hcode h.1]

theorem presentUint64_eq (hn : n < 2 ^ 53) : (presentUint64 P d key).map (fun m => (m.toNat : Int)) =
      recovered n code unsignedCodes false (some 0) := by
  have hpresent : presentUint64 P d key = some (toUint64 P v) := by
    rw [presentUint64, get_eq hd]
    cases hcode with
    | json h => rw [eq_float64_of_ofJson hn h]
    | fixint | uint8 | uint16 | uint32 | uint64 | int8 | int16 | int32 | int64 => rfl
  rw [hpresent, recovered_keeping_zero]
  exact isUint64Reader_ndp.reads hn hcode

theorem optUint64_eq (hn : n < 2 ^ 53) : (optUint64 P d key).map (fun m => (m.toNat : Int)) =
      recovered n code unsignedCodes false none := by
  rw [optUint64, get_eq hd, recovered_keeping_zero]
  cases hcode with
  | uint64 | int64 => exact congrArg (fun m : Nat => some (m : Int)) (toNat_ofInt_natCast (by omega))
  | json h =>
    rw [eq_float64_of_ofJson hn h]
    exact congrArg (fun m : Nat => some (m : Int)) (uint64OfFloat_natCast hn)
  | fixint | uint8 | uint16 | uint32 | int8 | int16 | int32 => rfl

theorem optUint32_eq (hn : n < 2 ^ 53) (hn32 : n < 2 ^ 32) : (optUint32 P d key).map (fun m => (m.toNat : Int)) =
      recovered n code uint32Codes false none := by
  rw [optUint32, hd, recovered_keeping_zero]
  cases hcode with
  | uint32 => exact congrArg (fun m : Nat => some (m : Int)) (toNat_ofInt32_natCast hn32)
  | json h =>
    rw [eq_float64_of_ofJson hn h]
    exact congrArg (fun m : Nat => some (m : Int)) (uint32OfFloat_natCast hn hn32)
  | fixint | uint8 | uint16 | uint64 | int8 | int16 | int32 | int64 => rfl

end

theorem lt_of_holds_uint32 {field : IntField} {m : Option UInt32} (hholds : field.Holds n d)
    (hkey : d[field.key]? = m.map .uint32) : n < 2 ^ 32 := by
  obtain ⟨kind, hkind, hentry⟩ := hholds
  rw [hentry] at hkey
  cases m with
  | none => cases hkey
  | some m =>
    have hint := Option.some.inj hkey
    injection hint with hkinds hvalues
    subst hkinds
    have hn : (n : Int) = m.toNat := congrArg Subtype.val (eq_of_heq hvalues)
    have hlt := m.toNat_lt
    omega

theorem lt_of_emits_uint32 {field : IntField} (htakes : field.takes = uint32Codes)
    (hemits : field.Emits T n) : n < 2 ^ 32 := by
  cases field with
  | subscribeHeartbeatIntervalMs =>
    obtain ⟨f, hholds⟩ := hemits
    refine lt_of_holds_uint32 (m := f.heartbeatIntervalMs) hholds ?_
    simp [IntField.key, Nwp.SubscribeFrame.toDict, getElem?_setIf, GoMap.ofList]
  | subscribeMaxEvents =>
    obtain ⟨f, hholds⟩ := hemits
    refine lt_of_holds_uint32 (m := f.maxEvents) hholds ?_
    simp [IntField.key, Nwp.SubscribeFrame.toDict, getElem?_setIf, GoMap.ofList]
  | actionTimeoutMs =>
    obtain ⟨f, hholds⟩ := hemits
    refine lt_of_holds_uint32 (m := f.timeoutMs) hholds ?_
    simp [IntField.key, Nwp.ActionFrame.toDict, getElem?_setIf, GoMap.ofList]
  | _ => cases htakes

theorem IntField.read_eq (field : IntField) (hn : n < 2 ^ 53) (hemits : field.Emits T n)
    (hcode : Decoded P n code v) (hd : d[field.key]? = some v) :
    field.read P d = recovered n code field.takes field.zeroIsUnset field.otherwise := by
  cases field with
  | anchorTtl | helloMaxFramePayload | helloMaxConcurrentStreams =>
    exact isUint64Reader_ncp.orDefault hcode hd hn
  | announceTtl => exact isUint64Reader_ndp.orDefault hcode hd hn
  | taskResultTtlSeconds => exact isUint64Reader_nop.orDefault hcode hd hn
  | streamSeq | capsCount | helloPingIntervalMs => exact (isUint64Reader_ncp.reads hn).member hcode hd
  | alignStreamSeq => exact (isUint64Reader_nop.reads hn).member hcode hd
  | capsTokenEst | handshakeMaxFramePayload | handshakeMaxConcurrentStreams =>
    exact isUint64Reader_ncp.pointer hcode hd hn
  | taskTimeoutMs | syncTimeoutMs | alignStreamWindowSize | alignStreamAckSeq | alignStreamNakSeq =>
    exact isUint64Reader_nop.pointer hcode hd hn
  | announceHeartbeatIntervalMs =>
    have hpointer := isUint64Reader_ndp.pointer hcode hd hn
    rw [hd] at hpointer
    rw [read, announceFrameFromDict, show d["heartbeat_interval_ms"]? = some v from hd]
    exact hpointer
  | announceClusterEpoch | announceGraphSeq => exact presentUint64_eq hcode hd hn
  | graphTtl => exact intValue_getD_eq hcode hd hn
  | edgeLatencyMs => exact (reads_intValue hn).member hcode hd
  | syncMinRequired => exact (reads_toInt64 hn).member hcode hd
  | taskDepth => exact optInt64_eq hcode hd hn
  | queryTokenBudget | queryLimit | queryOffset | queryDepth => exact optUint64_eq hcode hd hn
  | subscribeHeartbeatIntervalMs | subscribeMaxEvents | actionTimeoutMs =>
    exact optUint32_eq hcode hd hn (lt_of_emits_uint32 rfl hemits)

/-- A number is recovered exactly if it came in a code the field takes, and is not a zero that stands for
nothing, or is what the field holds anyway. -/
theorem recovered_iff (field : IntField) (hn : n < 2 ^ 53) (hemits : field.Emits T n)
    (hcode : Decoded P n code v) (hd : d[field.key]? = some v) : field.read P d = some (n : Int) ↔
      (code ∈ field.takes ∧ ¬ (n = 0 ∧ field.zeroIsUnset = true)) ∨ field.otherwise = some (n : Int) := by
  rw [field.read_eq hn hemits hcode hd, recovered]
  split_ifs with htaken
  · simp only [htaken, not_false_eq_true, and_self, true_or]
  · simp only [htaken, false_or]

end

theorem holds_five : ∀ kind : IntKind, kind.Holds (5 : Nat)
  | .int | .int8 | .int16 | .int32 | .int64 | .uint | .uint8 | .uint16 | .uint32 | .uint64 => by decide

def fifthDict (kind : IntKind) : FrameDict Empty :=
  (∅ : FrameDict Empty).insert "seq" (.int kind ⟨(5 : Nat), holds_five kind⟩)

theorem getElem?_fifthDict (kind : IntKind) :
    (fifthDict kind)["seq"]? = some (.int kind ⟨(5 : Nat), holds_five kind⟩) := by
  rw [fifthDict, GoMap.getElem?_insert, if_pos rfl]

theorem streamSeq_emits_five : IntField.streamSeq.Emits Empty 5 := by
  refine ⟨{ anchorID := [], seq := 5, payload := .nil, isLast := false }, .uint64, holds_five .uint64, ?_⟩
  simp only [IntField.key, Ncp.StreamFrame.toDict, GoMap.ofList, List.foldl_cons, List.foldl_nil,
    GoMap.getElem?_insert, String.reduceEq]
  rfl

/-- In eight bytes the number is read. -/
theorem wide_seq_recovered : IntField.streamSeq.read plainPlatform (fifthDict .uint64) = some 5 :=
  (recovered_iff .streamSeq (by decide) streamSeq_emits_five (.uint64 (holds_five .uint64))
    (getElem?_fifthDict .uint64)).mpr (.inl ⟨by decide, by decide⟩)

/-- In one byte, the shortest code, it is read as zero. -/
theorem short_seq_lost : IntField.streamSeq.Emits Empty 5 ∧
      Decoded plainPlatform 5 .fixint (.int .int8 ⟨(5 : Nat), holds_five .int8⟩) ∧
      IntField.streamSeq.read plainPlatform (fifthDict .int8) = some 0 := by
  refine ⟨streamSeq_emits_five, .fixint (holds_five .int8), ?_⟩
  rw [IntField.streamSeq.read_eq (by decide) streamSeq_emits_five (.fixint (holds_five .int8))
    (getElem?_fifthDict .int8)]
  rfl

end NpsSdk
