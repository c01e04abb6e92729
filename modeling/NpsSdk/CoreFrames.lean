import NpsSdk.ByteOrder
import NpsSdk.ByteStream
import NpsSdk.GoString

/-! Frame headers. A header is four bytes with a 16 bit length, or eight bytes with a 32 bit length when
the EXT flag is set; flags also hold the encoding tier in their two low bits and the FINAL mark. -/

namespace NpsSdk.Core

open ByteOrder

abbrev Bytes := List UInt8

/-! ### Errors -/

/-- The errors of the native protocol, by the Go type they are reported with. -/
inductive GoError where
  /-- `io.EOF` -/
  | eof
  /-- `io.ErrUnexpectedEOF` -/
  | unexpectedEOF
  /-- `*net.OpError` -/
  | op (text : GoString)
  /-- `errors.New` and `fmt.Errorf` -/
  | text (text : GoString)
  /-- `*core.ErrFrame` -/
  | frame (msg : GoString)
  /-- `*core.ErrCodec` -/
  | codec (msg : GoString)
  /-- An error of an encoder, handed on as it is. -/
  | encoder (text : GoString)
  /-- `*ncp.ErrPreambleInvalid` -/
  | preamble (reason : GoString)
  /-- `*ncp.NcpHandshakeError` -/
  | handshake (errorCode message : GoString)
  /-- `*ncp.NcpProtocolError` -/
  | protocol (code npsStatus message : GoString)
  deriving DecidableEq

/-- A connection: what the peer sends, and the text of the error it may break with. -/
abbrev Conn := Stream GoString

def GoError.ofRead : ReadError GoString → GoError
  | .eof => .eof
  | .unexpectedEOF => .unexpectedEOF
  | .failure reason => .op reason

def readFull (n : Nat) (r : Conn) : Except GoError (Bytes × Conn) :=
  (r.readFull n).mapError GoError.ofRead

theorem readFull_ok_iff {n : Nat} {r rest : Conn} {bs : Bytes} :
    readFull n r = .ok (bs, rest) ↔ bs.length = n ∧ r = Stream.prepend bs rest := by
  rw [← Stream.readFull_ok_iff, readFull]
  cases r.readFull n with
  | error e => exact ⟨nofun, nofun⟩
  | ok p => exact ⟨fun h => by cases h; rfl, fun h => by cases h; rfl⟩

theorem bind_eq_ok_iff {ε α β : Type} {x : Except ε α} {f : α → Except ε β} {b : β} :
    x >>= f = .ok b ↔ ∃ a, x = .ok a ∧ f a = .ok b := by
  cases x with
  | error e => exact ⟨nofun, nofun⟩
  | ok a => exact ⟨fun h => ⟨a, rfl, h⟩, fun ⟨a', ha, h⟩ => by cases ha; exact h⟩

/-! ### Frame types and tiers -/

inductive FrameType where
  | anchor | diff | stream | caps | hello | nop
  | query | action | subscribe
  | ident | trust | revoke
  | announce | resolve | graph
  | task | delegate | sync | alignStream
  | error
  deriving DecidableEq

def FrameType.code : FrameType → UInt8
  | .anchor => 0x01
  | .diff => 0x02
  | .stream => 0x03
  | .caps => 0x04
  | .hello => 0x06
  | .nop => 0x07
  | .query => 0x10
  | .action => 0x11
  | .subscribe => 0x12
  | .ident => 0x20
  | .trust => 0x21
  | .revoke => 0x22
  | .announce => 0x30
  | .resolve => 0x31
  | .graph => 0x32
  | .task => 0x40
  | .delegate => 0x41
  | .sync => 0x42
  | .alignStream => 0x43
  | .error => 0xFE

def knownFrameTypes : List FrameType :=
  [.anchor, .diff, .stream, .caps, .hello, .nop, .query, .action, .subscribe, .ident, .trust, .revoke,
    .announce, .resolve, .graph, .task, .delegate, .sync, .alignStream, .error]

def hexDigit (n : Nat) : Char := if n < 10 then Char.ofNat (48 + n) else Char.ofNat (55 + n)

def hexByte (b : UInt8) : GoString :=
  GoString.ofChars ['0', 'x', hexDigit (b.toNat / 16), hexDigit (b.toNat % 16)]

def frameTypeFromByte (b : UInt8) : Except GoError FrameType :=
  match knownFrameTypes.find? (·.code = b) with
  | some ft => .ok ft
  | none => .error (.text ("unknown frame type: " ++ hexByte b))

theorem frameTypeFromByte_code (ft : FrameType) : frameTypeFromByte ft.code = .ok ft := by
  cases ft <;> rfl

theorem code_of_frameTypeFromByte {b : UInt8} {ft : FrameType} (h : frameTypeFromByte b = .ok ft) : ft.code = b := by
  rw [frameTypeFromByte] at h
  cases hfind : knownFrameTypes.find? (·.code = b) with
  | none =>
    rw [hfind] at h
    cases h
  | some found =>
    rw [hfind] at h
    cases h
    have hcode := List.find?_some (p := fun ft : FrameType => decide (ft.code = b)) hfind
    exact of_decide_eq_true hcode

/-- A tier is a byte; those without a name have no encoding. -/
abbrev EncodingTier := UInt8

def encodingTierJSON : EncodingTier := 0
def encodingTierMsgPack : EncodingTier := 1
def encodingTierBinaryVector : EncodingTier := 2

/-! ### Headers -/

structure FrameHeader where
  frameType : FrameType
  flags : UInt8
  payloadLength : Nat
  isExtended : Bool
  deriving DecidableEq

def newFrameHeader (ft : FrameType) (tier : EncodingTier) (isFinal : Bool) (payloadLen : Nat) : FrameHeader :=
  let isExt := decide (payloadLen > 0xFFFF)
  let flags := tier &&& 0x03
  let flags := if isFinal then flags ||| 0x04 else flags
  let flags := if isExt then flags ||| 0x80 else flags
  { frameType := ft, flags := flags, payloadLength := payloadLen, isExtended := isExt }

def hasExt (flags : UInt8) : Bool := flags &&& 0x80 ≠ 0

namespace FrameHeader

def encodingTier (h : FrameHeader) : EncodingTier := h.flags &&& 0x03

def isFinal (h : FrameHeader) : Bool := h.flags &&& 0x04 ≠ 0

def headerSize (h : FrameHeader) : Nat := if h.isExtended then 8 else 4

def toBytes (h : FrameHeader) : Bytes :=
  if h.isExtended then [h.frameType.code, h.flags, 0, 0] ++ putBE 4 h.payloadLength
  else [h.frameType.code, h.flags] ++ putBE 2 h.payloadLength

end FrameHeader

def parseFrameHeader : Bytes → Except GoError FrameHeader
  | kind :: flags :: hi :: lo :: rest => do
      let ft ← frameTypeFromByte kind
      if hasExt flags then
        match rest with
        | b₃ :: b₂ :: b₁ :: b₀ :: _ =>
          return { frameType := ft, flags := flags, payloadLength := getBE [b₃, b₂, b₁, b₀],
                   isExtended := true }
        | _ => throw (.text "buffer too small for extended header")
      else
        return { frameType := ft, flags := flags, payloadLength := getBE [hi, lo],
                 isExtended := false }
  | _ => throw (.text "buffer too small for frame header")

/-! ### What a header says -/

theorem newFrameHeader_flags (tier : EncodingTier) (isFinal isExt : Bool) :
    let flags := if isFinal then tier &&& 0x03 ||| 0x04 else tier &&& 0x03
    let flags := if isExt then flags ||| 0x80 else flags
    flags &&& 0x03 = tier &&& 0x03 ∧ (flags &&& 0x04 ≠ 0 ↔ isFinal = true) ∧
      (hasExt flags = isExt) := by
  have hsmall : ∀ t < 256, ∀ final ext : Bool, let low := UInt8.ofNat t &&& 0x03
      let flags := if final then low ||| 0x04 else low
      let flags := if ext then flags ||| 0x80 else flags
      flags &&& 0x03 = low ∧ (flags &&& 0x04 ≠ 0 ↔ final = true) ∧ hasExt flags = ext := by
    decide +kernel
  have h := hsmall tier.toNat tier.toNat_lt isFinal isExt
  rwa [UInt8.ofNat_toNat] at h

theorem encodingTier_newFrameHeader (ft : FrameType) (tier : EncodingTier) (isFinal : Bool) (payloadLen : Nat) :
    (newFrameHeader ft tier isFinal payloadLen).encodingTier = tier &&& 0x03 :=
  (newFrameHeader_flags tier isFinal (decide (payloadLen > 0xFFFF))).1

theorem isFinal_newFrameHeader (ft : FrameType) (tier : EncodingTier) (isFinal : Bool)
    (payloadLen : Nat) : (newFrameHeader ft tier isFinal payloadLen).isFinal = isFinal := by
  have h := (newFrameHeader_flags tier isFinal (decide (payloadLen > 0xFFFF))).2.1
  rw [FrameHeader.isFinal, Bool.eq_iff_iff, decide_eq_true_iff]
  exact h

theorem FrameHeader.length_toBytes (h : FrameHeader) : h.toBytes.length = h.headerSize := by
  rw [toBytes, headerSize]
  split <;> simp [length_putBE]

/-- A header agrees with its own flags, and its length fits its form. -/
structure FrameHeader.WellFormed (h : FrameHeader) : Prop where
  ext : h.isExtended = hasExt h.flags
  length_lt : h.payloadLength < if h.isExtended then 2 ^ 32 else 2 ^ 16

theorem wellFormed_newFrameHeader (ft : FrameType) (tier : EncodingTier) (isFinal : Bool)
    {payloadLen : Nat} (h : payloadLen < 2 ^ 32) : (newFrameHeader ft tier isFinal payloadLen).WellFormed where
  ext := (newFrameHeader_flags tier isFinal (decide (payloadLen > 0xFFFF))).2.2.symm
  length_lt := by
    rw [newFrameHeader]
    dsimp only
    split
    · exact h
    rename_i hext
    rw [decide_eq_true_iff] at hext
    omega

variable {h : FrameHeader}

/-- A well formed header is read back, whatever follows it. -/
theorem parseFrameHeader_toBytes (hwell : h.WellFormed) (rest : Bytes) :
    parseFrameHeader (h.toBytes ++ rest) = .ok h := by
  obtain ⟨ft, flags, len, ext⟩ := h
  obtain ⟨hext, hlen⟩ := hwell
  cases ext with
  | true =>
    rw [if_pos rfl] at hlen
    have hbytes := getBE_putBE 4 len
    rw [Nat.mod_eq_of_lt (by omega)] at hbytes
    obtain ⟨b₃, b₂, b₁, b₀, hput⟩ : ∃ b₃ b₂ b₁ b₀, putBE 4 len = [b₃, b₂, b₁, b₀] :=
      ⟨_, _, _, _, rfl⟩
    rw [hput] at hbytes
    simp only [FrameHeader.toBytes, hput, parseFrameHeader, List.cons_append, List.nil_append,
      if_true, frameTypeFromByte_code, ← hext, hbytes]
    rfl
  | false =>
    rw [if_neg Bool.false_ne_true] at hlen
    have hbytes := getBE_putBE 2 len
    rw [Nat.mod_eq_of_lt (by omega)] at hbytes
    obtain ⟨b₁, b₀, hput⟩ : ∃ b₁ b₀, putBE 2 len = [b₁, b₀] := ⟨_, _, rfl⟩
    rw [hput] at hbytes
    simp only [FrameHeader.toBytes, hput, parseFrameHeader, List.cons_append, List.nil_append,
      Bool.false_eq_true, if_false, frameTypeFromByte_code, ← hext, hbytes]
    rfl

theorem parseFrameHeader_ok {wire : Bytes} (hparse : parseFrameHeader wire = .ok h) :
    h.WellFormed ∧ ∃ hi lo tail rest, wire = h.frameType.code :: h.flags :: hi :: lo :: tail ++ rest ∧
      (h.frameType.code :: h.flags :: hi :: lo :: tail).length = h.headerSize := by
  unfold parseFrameHeader at hparse
  split at hparse
  · rename_i kind flags hi lo rest
    obtain ⟨ft, hft, hrest⟩ := bind_eq_ok_iff.mp hparse
    have hcode := code_of_frameTypeFromByte hft
    split_ifs at hrest with hext
    · split at hrest
      · rename_i b₃ b₂ b₁ b₀ rest
        cases hrest
        have hlt : getBE [b₃, b₂, b₁, b₀] < 2 ^ 32 :=
          (getBE_lt _).trans_eq (by norm_num)
        refine ⟨⟨hext.symm, hlt⟩, hi, lo, [b₃, b₂, b₁, b₀], rest, ?_, rfl⟩
        rw [hcode]
        rfl
      · cases hrest
    · cases hrest
      have hlt : getBE [hi, lo] < 2 ^ 16 :=
        (getBE_lt _).trans_eq (by norm_num)
      refine ⟨⟨(Bool.eq_false_iff.mpr hext).symm, hlt⟩, hi, lo, [], rest, ?_, rfl⟩
      rw [hcode]
      rfl
  · cases hparse

theorem parseFrameHeader_append {raw : Bytes} (hparse : parseFrameHeader raw = .ok h) (rest : Bytes) :
    parseFrameHeader (raw ++ rest) = .ok h := by
  unfold parseFrameHeader at hparse
  split at hparse
  · obtain ⟨ft, hft, hrest⟩ := bind_eq_ok_iff.mp hparse
    simp only [List.cons_append, parseFrameHeader, hft]
    split_ifs at hrest with hext
    · split at hrest
      · cases hrest
        simp only [hext]
        rfl
      · cases hrest
    · cases hrest
      simp only [hext]
      rfl
  · cases hparse

end NpsSdk.Core
