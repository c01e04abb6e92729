import NpsSdk.CoreFrames

/-! Two readers of frames. The one of the `ncp` package reads two bytes, then the rest of the header, and
rebuilds the wire from the parsed header; the one of the `nwp` package reads four bytes, then the
extension, and keeps the bytes as they came. Both accept the same frames. -/

open NpsSdk.Core

namespace NpsSdk

open List FrameHeader

namespace Ncp

def frameHeaderDefaultSize : Nat := 4
def frameHeaderExtendedSize : Nat := 8

def readFrameHeader (r : Conn) : Except GoError (FrameHeader × Conn) := do
  let (peek, r) ← readFull 2 r
  let ext := hasExt (peek.getD 1 0)
  let remaining := if ext then frameHeaderExtendedSize - 2 else frameHeaderDefaultSize - 2
  let (rest, r) ← readFull remaining r
  let header ← parseFrameHeader (peek ++ rest)
  return (header, r)

/-- A header and the payload it announces, as every caller of `readFrameHeader` reads them. -/
def readFrame (r : Conn) : Except GoError ((FrameHeader × Bytes) × Conn) := do
  let (header, r) ← readFrameHeader r
  let (payload, r) ← readFull header.payloadLength r
  return ((header, payload), r)

def rebuild (frame : FrameHeader × Bytes) : Bytes := frame.1.toBytes ++ frame.2

end Ncp

namespace Nwp

/-- The bytes of a header, with the extension the EXT flag asks for. -/
def readNativeHeader (r : Conn) : Except GoError (Bytes × Conn) := do
  let (header, r) ← readFull 4 r
  if hasExt (header.getD 1 0) then
    let (rest, r) ← readFull 4 r
    return (header ++ rest, r)
  else return (header, r)

def readNativeWireFrame (r : Conn) : Except GoError (Bytes × Conn) := do
  let (raw, r) ← readNativeHeader r
  let hdr ← parseFrameHeader raw
  let (payload, r) ← readFull hdr.payloadLength r
  return (raw ++ payload, r)

end Nwp

/-! ### What each reader accepts -/

def HeaderBytes (header : FrameHeader) (raw : Bytes) : Prop :=
  parseFrameHeader raw = .ok header ∧ raw.length = header.headerSize

theorem headerBytes_toBytes {header : FrameHeader} (hwell : header.WellFormed) : HeaderBytes header header.toBytes := by
  refine ⟨?_, header.length_toBytes⟩
  have hparse := parseFrameHeader_toBytes hwell []
  rwa [append_nil] at hparse

variable {raw : Bytes}

/-- Header bytes are two bytes, the second the flags, and as many more as the flags ask for. -/
theorem headerBytes_split {header : FrameHeader} (h : HeaderBytes header raw) :
    ∃ kind hi lo tail, raw = [kind, header.flags, hi, lo] ++ tail ∧
      tail.length = (if hasExt header.flags then 4 else 0) := by
  obtain ⟨hparse, hlength⟩ := h
  obtain ⟨hwell, hi, lo, tail, rest, hraw, hsize⟩ := parseFrameHeader_ok hparse
  have hrest : rest = [] := by
    rw [hraw, length_append] at hlength
    exact length_eq_zero_iff.mp (by omega)
  refine ⟨_, hi, lo, tail, by rw [hraw, hrest, append_nil]; rfl, ?_⟩
  rw [headerSize, hwell.ext] at hsize
  simp only [length_cons] at hsize
  split_ifs at hsize ⊢ with hext <;> omega

variable {r rest : Conn}

theorem Ncp.readFrameHeader_ok_iff {header : FrameHeader} : readFrameHeader r = .ok (header, rest) ↔
      ∃ raw, HeaderBytes header raw ∧ r = Stream.prepend raw rest := by
  constructor
  · intro h
    obtain ⟨⟨peek, r₁⟩, hpeek, h⟩ := bind_eq_ok_iff.mp h
    obtain ⟨⟨tail, r₂⟩, htail, h⟩ := bind_eq_ok_iff.mp h
    obtain ⟨hdr, hparse, h⟩ := bind_eq_ok_iff.mp h
    cases h
    obtain ⟨hpeekLength, rfl⟩ := readFull_ok_iff.mp hpeek
    obtain ⟨htailLength, rfl⟩ := readFull_ok_iff.mp htail
    refine ⟨peek ++ tail, ⟨hparse, ?_⟩, by rw [Stream.prepend_append]⟩
    obtain ⟨kind, flags, rfl⟩ := length_eq_two.mp hpeekLength
    obtain ⟨hwell, hi, lo, tail', rest', hraw, -⟩ := parseFrameHeader_ok hparse
    have hflags : flags = header.flags := by
      simp only [cons_append, List.cons.injEq] at hraw
      exact hraw.2.1
    have hget : [kind, flags].getD 1 0 = flags := rfl
    rw [length_append, htailLength, headerSize, hwell.ext, ← hflags, hget]
    cases hasExt flags <;> rfl
  · rintro ⟨raw, hraw, rfl⟩
    obtain ⟨kind, hi, lo, tail, rfl, htail⟩ := headerBytes_split hraw
    have hrest : (hi :: lo :: tail).length = if hasExt header.flags
        then frameHeaderExtendedSize - 2 else frameHeaderDefaultSize - 2 := by
      rw [length_cons, length_cons, htail]
      cases hasExt header.flags <;> rfl
    have hpeek := readFull_ok_iff.mpr ⟨rfl, Stream.prepend_append [kind, header.flags] (hi :: lo :: tail) rest⟩
    refine bind_eq_ok_iff.mpr ⟨_, hpeek, bind_eq_ok_iff.mpr ⟨(hi :: lo :: tail, rest), ?_, ?_⟩⟩
    · exact readFull_ok_iff.mpr ⟨hrest, rfl⟩
    · exact bind_eq_ok_iff.mpr ⟨header, hraw.1, rfl⟩

theorem Ncp.readFrame_ok_iff {header : FrameHeader} {payload : Bytes} :
    readFrame r = .ok ((header, payload), rest) ↔
      ∃ raw, HeaderBytes header raw ∧ payload.length = header.payloadLength ∧
        r = Stream.prepend (raw ++ payload) rest := by
  constructor
  · intro h
    obtain ⟨⟨hdr, r₁⟩, hheader, h⟩ := bind_eq_ok_iff.mp h
    obtain ⟨⟨body, r₂⟩, hbody, h⟩ := bind_eq_ok_iff.mp h
    cases h
    obtain ⟨raw, hraw, rfl⟩ := readFrameHeader_ok_iff.mp hheader
    obtain ⟨hlength, rfl⟩ := readFull_ok_iff.mp hbody
    exact ⟨raw, hraw, hlength, by rw [Stream.prepend_append]⟩
  · rintro ⟨raw, hraw, hlength, rfl⟩
    rw [Stream.prepend_append]
    refine bind_eq_ok_iff.mpr ⟨_, readFrameHeader_ok_iff.mpr ⟨raw, hraw, rfl⟩, ?_⟩
    exact bind_eq_ok_iff.mpr ⟨_, readFull_ok_iff.mpr ⟨hlength, rfl⟩, rfl⟩

theorem Nwp.readNativeHeader_ok_iff : readNativeHeader r = .ok (raw, rest) ↔
      ∃ kind flags hi lo tail, raw = [kind, flags, hi, lo] ++ tail ∧
        tail.length = (if hasExt flags then 4 else 0) ∧ r = Stream.prepend raw rest := by
  constructor
  · intro hread
    obtain ⟨⟨head, r₁⟩, hhead, hmore⟩ := bind_eq_ok_iff.mp hread
    obtain ⟨hheadLength, rfl⟩ := readFull_ok_iff.mp hhead
    obtain ⟨kind, flags, hi, lo, rfl⟩ := length_eq_four.mp hheadLength
    have hget : [kind, flags, hi, lo].getD 1 0 = flags := rfl
    dsimp only at hmore
    rw [hget] at hmore
    split_ifs at hmore with hext
    · obtain ⟨⟨tail, r₂⟩, htail, hdone⟩ := bind_eq_ok_iff.mp hmore
      cases hdone
      obtain ⟨htailLength, rfl⟩ := readFull_ok_iff.mp htail
      refine ⟨kind, flags, hi, lo, tail, rfl, ?_, (Stream.prepend_append _ _ _).symm⟩
      rw [if_pos hext, htailLength]
    · cases hmore
      exact ⟨kind, flags, hi, lo, [], rfl, by rw [if_neg hext, length_nil], rfl⟩
  · rintro ⟨kind, flags, hi, lo, tail, rfl, htail, rfl⟩
    have hhead := readFull_ok_iff.mpr ⟨rfl, Stream.prepend_append [kind, flags, hi, lo] tail rest⟩
    refine bind_eq_ok_iff.mpr ⟨_, hhead, ?_⟩
    have hget : [kind, flags, hi, lo].getD 1 0 = flags := rfl
    dsimp only
    rw [hget]
    split_ifs at htail ⊢ with hext
    · exact bind_eq_ok_iff.mpr ⟨(tail, rest), readFull_ok_iff.mpr ⟨htail, rfl⟩, rfl⟩
    · rw [length_eq_zero_iff.mp htail]
      rfl

theorem headerBytes_iff {header : FrameHeader} :
    HeaderBytes header raw ↔ parseFrameHeader raw = .ok header ∧
      ∃ kind flags hi lo tail, raw = [kind, flags, hi, lo] ++ tail ∧
        tail.length = if hasExt flags then 4 else 0 := by
  constructor
  · intro h
    obtain ⟨kind, hi, lo, tail, hraw, htail⟩ := headerBytes_split h
    exact ⟨h.1, kind, header.flags, hi, lo, tail, hraw, htail⟩
  · rintro ⟨hparse, kind, flags, hi, lo, tail, rfl, htail⟩
    refine ⟨hparse, ?_⟩
    obtain ⟨hwell, hi', lo', tail', rest', hraw, -⟩ := parseFrameHeader_ok hparse
    have hflags : flags = header.flags := by
      simp only [cons_append, List.cons.injEq] at hraw
      exact hraw.2.1
    rw [length_append, htail, headerSize, hwell.ext, ← hflags]
    cases hasExt flags <;> rfl

theorem Nwp.readNativeWireFrame_ok_iff {wire : Bytes} : readNativeWireFrame r = .ok (wire, rest) ↔
      ∃ header raw payload, HeaderBytes header raw ∧ payload.length = header.payloadLength ∧
        wire = raw ++ payload ∧ r = Stream.prepend wire rest := by
  constructor
  · intro h
    obtain ⟨⟨raw, r₁⟩, hraw, h⟩ := bind_eq_ok_iff.mp h
    obtain ⟨hdr, hparse, h⟩ := bind_eq_ok_iff.mp h
    obtain ⟨⟨payload, r₂⟩, hpayload, h⟩ := bind_eq_ok_iff.mp h
    cases h
    obtain ⟨kind, flags, hi, lo, tail, rfl, htail, rfl⟩ := readNativeHeader_ok_iff.mp hraw
    obtain ⟨hlength, rfl⟩ := readFull_ok_iff.mp hpayload
    refine ⟨hdr, _, payload, headerBytes_iff.mpr ⟨hparse, kind, flags, hi, lo, tail, rfl, htail⟩,
      hlength, rfl, ?_⟩
    exact (Stream.prepend_append _ _ _).symm
  · rintro ⟨header, raw, payload, hraw, hlength, rfl, rfl⟩
    obtain ⟨hparse, kind, flags, hi, lo, tail, rfl, htail⟩ := headerBytes_iff.mp hraw
    rw [Stream.prepend_append]
    refine bind_eq_ok_iff.mpr ⟨_, readNativeHeader_ok_iff.mpr ⟨kind, flags, hi, lo, tail, rfl, htail, rfl⟩, ?_⟩
    refine bind_eq_ok_iff.mpr ⟨header, hparse, ?_⟩
    exact bind_eq_ok_iff.mpr ⟨_, readFull_ok_iff.mpr ⟨hlength, rfl⟩, rfl⟩

/-! ### Agreement of the readers -/

/-- The wire holds the frame: its header, and behind it the payload. -/
def Carries (frame : FrameHeader × Bytes) (wire : Bytes) : Prop :=
  parseFrameHeader wire = .ok frame.1 ∧ wire.drop frame.1.headerSize = frame.2 ∧
    frame.2.length = frame.1.payloadLength

/-- On every stream both readers fail, or both read the same frame and leave the same rest. -/
theorem readers_agree (r : Conn) : ReadsAgree Carries (Ncp.readFrame r) (Nwp.readNativeWireFrame r) := by
  cases hncp : Ncp.readFrame r with
  | ok p =>
    obtain ⟨⟨header, payload⟩, rest⟩ := p
    obtain ⟨raw, hraw, hlength, hr⟩ := Ncp.readFrame_ok_iff.mp hncp
    have hnwp := Nwp.readNativeWireFrame_ok_iff.mpr ⟨header, raw, payload, hraw, hlength, rfl, hr⟩
    rw [hnwp]
    refine ⟨⟨parseFrameHeader_append hraw.1 payload, ?_, hlength⟩, rfl⟩
    rw [← hraw.2, drop_left]
  | error e =>
    cases hnwp : Nwp.readNativeWireFrame r with
    | error e' => exact trivial
    | ok p =>
      obtain ⟨header, raw, payload, hraw, hlength, hwire, hr⟩ :=
        Nwp.readNativeWireFrame_ok_iff.mp hnwp
      rw [hwire] at hr
      rw [Ncp.readFrame_ok_iff.mpr ⟨raw, hraw, hlength, hr⟩] at hncp
      cases hncp

/-! ### Sequences of frames -/

structure WireFrame where
  frameType : FrameType
  tier : EncodingTier
  isFinal : Bool
  payload : Bytes
  tier_lt : tier < 4
  payload_lt : payload.length < 2 ^ 32

namespace WireFrame

variable (f : WireFrame)

def header : FrameHeader :=
  newFrameHeader f.frameType f.tier f.isFinal f.payload.length

def wire : Bytes := f.header.toBytes ++ f.payload

/-- What of a frame its header and payload tell. -/
def view (frame : FrameHeader × Bytes) : FrameType × EncodingTier × Bool × Bytes :=
  (frame.1.frameType, frame.1.encodingTier, frame.1.isFinal, frame.2)

theorem view_header : view (f.header, f.payload) = (f.frameType, f.tier, f.isFinal, f.payload) := by
  have htier : f.tier &&& 0x03 = f.tier := by
    have hsmall : ∀ t < 4, UInt8.ofNat t &&& 0x03 = UInt8.ofNat t := by decide
    have h := hsmall f.tier.toNat (UInt8.lt_iff_toNat_lt.mp f.tier_lt)
    rwa [UInt8.ofNat_toNat] at h
  rw [view, header, encodingTier_newFrameHeader, isFinal_newFrameHeader, htier]
  rfl

theorem readFrame_wire (r : Conn) : Ncp.readFrame (Stream.prepend f.wire r) = .ok ((f.header, f.payload), r) := by
  have hwell : f.header.WellFormed :=
    wellFormed_newFrameHeader f.frameType f.tier f.isFinal f.payload_lt
  exact Ncp.readFrame_ok_iff.mpr ⟨_, headerBytes_toBytes hwell, rfl, rfl⟩

theorem wire_ne_nil : f.wire ≠ [] := by
  intro hnil
  have hlength := congrArg List.length hnil
  rw [wire, length_append, length_toBytes, headerSize, length_nil] at hlength
  split_ifs at hlength <;> omega

end WireFrame

/-- Frames written one after the other are read back as they were sent, with nothing left over, and the
wire of each is rebuilt; and both readers read the same frames off every stream. -/
theorem framing_agrees : (∀ frames : List WireFrame, ∃ parsed,
      readStream Ncp.readFrame ⟨frames.flatMap WireFrame.wire, .eof⟩ = (parsed, ⟨[], .eof⟩, some .eof) ∧
      parsed.map WireFrame.view = frames.map (fun f => (f.frameType, f.tier, f.isFinal, f.payload)) ∧
      parsed.map Ncp.rebuild = frames.map WireFrame.wire) ∧
    ∀ r : Conn, ReadsAgree Carries (Ncp.readFrame r) (Nwp.readNativeWireFrame r) ∧
      List.Forall₂ Carries (readStream Ncp.readFrame r).1 (readStream Nwp.readNativeWireFrame r).1 ∧
      (readStream Ncp.readFrame r).2.1 = (readStream Nwp.readNativeWireFrame r).2.1 := by
  constructor
  · intro frames
    have hread := readStream_flatMap (E := GoString) WireFrame.readFrame_wire WireFrame.wire_ne_nil
      (s := ⟨[], .eof⟩) (e := .eof) rfl frames
    refine ⟨frames.map fun f => (f.header, f.payload), ?_, ?_, ?_⟩
    · rw [Stream.prepend, append_nil] at hread
      exact hread
    · rw [map_map]
      exact map_congr_left fun f _ => f.view_header
    · rw [map_map]
      rfl
  · intro r
    exact ⟨readers_agree r, readAll_agree readers_agree _ r⟩

end NpsSdk
