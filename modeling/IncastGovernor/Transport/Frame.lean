import IncastGovernor.Core.Codec

/-! The frames of the wire: a header of twenty bytes with magic, version, type, flags, length
and checksum, and the payload behind it. A frame that is encoded is decoded from its bytes,
whatever comes behind them, and the header alone says how long they are. -/

namespace IncastGovernor

open Codec Foundation

/-- 'IGF1'. -/
def kFrameMagic : UInt32 := 0x31464749

def kFrameHeaderBytes : ℕ := 20

def kMaxFrameBytes : ℕ := 1048576

def kWireProtocolVersion : UInt16 := 1

inductive FrameType where
  | hello | helloAck | leaseRequest | leaseGrant | leaseDenied | leaseRenew | leaseRevoke
  | epochAdvance | decisionPublish | decisionAck | heartbeat | heartbeatAck | fenceNotice
  | shutdown | error | controlRequest | controlResponse
  deriving DecidableEq

namespace FrameType

def all : List FrameType :=
  [.hello, .helloAck, .leaseRequest, .leaseGrant, .leaseDenied, .leaseRenew, .leaseRevoke,
    .epochAdvance, .decisionPublish, .decisionAck, .heartbeat, .heartbeatAck, .fenceNotice,
    .shutdown, .error, .controlRequest, .controlResponse]

/-- The types are numbered from one. -/
def code (type : FrameType) : UInt16 := UInt16.ofNat (all.idxOf type + 1)

def ofCode (raw : UInt16) : Option FrameType :=
  if raw = 0 then none else all[raw.toNat - 1]?

@[simp] theorem ofCode_code (type : FrameType) : ofCode type.code = some type := by
  cases type <;> decide

end FrameType

structure Frame where
  type : FrameType := .error
  flags : UInt16 := 0
  payload : Text := []
  deriving DecidableEq

def encodeFrame (frame : Frame) : Outcome Text :=
  if frame.payload.length > kMaxFrameBytes then
    fail .oversizedInput "frame payload exceeds the supported bound"
  else
    .ok ([writeU32 kFrameMagic,
      writeU16 kWireProtocolVersion,
      writeU16 frame.type.code,
      writeU16 frame.flags,
      writeU16 0,
      writeU32 (UInt32.ofNat frame.payload.length),
      writeU32 (crc32c frame.payload)].flatten ++ frame.payload)

def loadU32 (bytes : Text) (offset : ℕ) : UInt32 :=
  UInt32.ofNat (leValue ((bytes.drop offset).take 4))

def loadU16 (bytes : Text) (offset : ℕ) : UInt16 :=
  UInt16.ofNat (leValue ((bytes.drop offset).take 2))

/-- A frame without its payload, and the length of the payload. -/
def decodeFrameHeader (header : Text) : Outcome (Frame × ℕ) := do
  if header.length < kFrameHeaderBytes then
    fail .truncatedInput "frame header is incomplete"
  if loadU32 header 0 ≠ kFrameMagic then
    fail .protocolViolation "frame magic mismatch"
  if loadU16 header 4 ≠ kWireProtocolVersion then
    fail .unsupportedVersion "unsupported wire protocol version"
  match FrameType.ofCode (loadU16 header 6) with
  | none => fail .protocolViolation "frame type is outside the known set"
  | some type =>
    if loadU16 header 10 ≠ 0 then
      fail .protocolViolation "frame reserved field must be zero"
    let length := (loadU32 header 12).toNat
    if length > kMaxFrameBytes then
      fail .oversizedInput "frame payload exceeds the supported bound"
    return ({ type, flags := loadU16 header 8 }, length)

def decodeFrame (bytes : Text) : Outcome Frame := do
  let (header, payloadLength) ← decodeFrameHeader bytes
  if bytes.length < kFrameHeaderBytes + payloadLength then
    fail .truncatedInput "frame payload is incomplete"
  let payload := (bytes.drop kFrameHeaderBytes).take payloadLength
  if crc32c payload ≠ loadU32 bytes 16 then
    fail .checksumMismatch "frame payload failed its integrity check"
  return { header with payload }

/-! ### Loads -/

/-- A field is loaded at the length of the fields before it. -/
theorem loadU32_field {before after : List Text} {value : UInt32} {payload : Text} {offset : ℕ}
    (h : before.flatten.length = offset) :
    loadU32 ((before ++ writeU32 value :: after).flatten ++ payload) offset = value := by
  have hlt : value.toNat < 256 ^ 4 := value.toNat_lt
  unfold loadU32
  rw [List.flatten_append, List.flatten_cons, List.append_assoc, List.drop_left' h,
    List.append_assoc, List.take_left' (writeU32_length value), writeU32, leValue_leBytes,
    Nat.mod_eq_of_lt hlt, UInt32.ofNat_toNat]

theorem loadU16_field {before after : List Text} {value : UInt16} {payload : Text} {offset : ℕ}
    (h : before.flatten.length = offset) :
    loadU16 ((before ++ writeU16 value :: after).flatten ++ payload) offset = value := by
  have hlt : value.toNat < 256 ^ 2 := value.toNat_lt
  unfold loadU16
  rw [List.flatten_append, List.flatten_cons, List.append_assoc, List.drop_left' h,
    List.append_assoc, List.take_left' (writeU16_length value), writeU16, leValue_leBytes,
    Nat.mod_eq_of_lt hlt, UInt16.ofNat_toNat]

theorem take_drop_append {bytes more : Text} {offset count : ℕ}
    (h : offset + count ≤ bytes.length) :
    ((bytes ++ more).drop offset).take count = (bytes.drop offset).take count := by
  rw [List.drop_append_of_le_length (by omega), List.take_append_of_le_length]
  rw [List.length_drop]
  omega

theorem loadU32_append {bytes : Text} {offset : ℕ} (h : offset + 4 ≤ bytes.length) (more : Text) :
    loadU32 (bytes ++ more) offset = loadU32 bytes offset := by
  unfold loadU32
  rw [take_drop_append h]

theorem loadU16_append {bytes : Text} {offset : ℕ} (h : offset + 2 ≤ bytes.length) (more : Text) :
    loadU16 (bytes ++ more) offset = loadU16 bytes offset := by
  unfold loadU16
  rw [take_drop_append h]

/-! ### Frames -/

/-- The header is read off the first twenty bytes. -/
theorem decodeFrameHeader_append {bytes : Text} (h : kFrameHeaderBytes ≤ bytes.length)
    (more : Text) : decodeFrameHeader (bytes ++ more) = decodeFrameHeader bytes := by
  have hlen : 20 ≤ bytes.length := h
  have hshort : ¬bytes.length < kFrameHeaderBytes := Nat.not_lt.mpr h
  have hlong : ¬(bytes ++ more).length < kFrameHeaderBytes := by
    rw [List.length_append]
    omega
  unfold decodeFrameHeader
  rw [if_neg hshort, if_neg hlong, loadU32_append (by omega), loadU32_append (by omega),
    loadU16_append (by omega), loadU16_append (by omega), loadU16_append (by omega),
    loadU16_append (by omega)]

/-- What the decoder of a frame makes of a header that it accepts. -/
theorem decodeFrame_of_header {bytes : Text} {frame : Frame} {count : ℕ}
    (h : decodeFrameHeader bytes = .ok (frame, count)) :
    decodeFrame bytes =
      if bytes.length < kFrameHeaderBytes + count then
        fail .truncatedInput "frame payload is incomplete"
      else if crc32c ((bytes.drop kFrameHeaderBytes).take count) ≠ loadU32 bytes 16 then
        fail .checksumMismatch "frame payload failed its integrity check"
      else .ok { frame with payload := (bytes.drop kFrameHeaderBytes).take count } := by
  unfold decodeFrame
  rw [h]
  show (if bytes.length < kFrameHeaderBytes + count then _ else _) = _
  split_ifs <;> rfl

theorem decodeFrame_of_header_error {bytes : Text} {error : Error}
    (h : decodeFrameHeader bytes = .error error) : decodeFrame bytes = .error error := by
  unfold decodeFrame
  rw [h]
  rfl

theorem decodeFrame_eq_ok {bytes : Text} {frame : Frame} :
    decodeFrame bytes = .ok frame ↔ ∃ blank count, decodeFrameHeader bytes = .ok (blank, count) ∧
      kFrameHeaderBytes + count ≤ bytes.length ∧
      crc32c ((bytes.drop kFrameHeaderBytes).take count) = loadU32 bytes 16 ∧
      { blank with payload := (bytes.drop kFrameHeaderBytes).take count } = frame := by
  cases hd : decodeFrameHeader bytes with
  | error error =>
    rw [decodeFrame_of_header_error hd]
    exact ⟨nofun, fun ⟨_, _, h, _⟩ => by cases h⟩
  | ok header =>
    obtain ⟨blank, count⟩ := header
    rw [decodeFrame_of_header hd]
    constructor
    · intro h
      refine ⟨blank, count, rfl, ?_⟩
      split_ifs at h with hshort hsum
      · cases h
      · cases h
      · exact ⟨Nat.not_lt.mp hshort, not_not.mp hsum, Except.ok.inj h⟩
    · rintro ⟨_, _, heq, hlen, hsum, hframe⟩
      cases heq
      rw [if_neg (Nat.not_lt.mpr hlen), if_neg (not_not.mpr hsum), hframe]

/-- A header that is accepted is whole. -/
theorem decodeFrameHeader_length {bytes : Text} {header : Frame × ℕ}
    (h : decodeFrameHeader bytes = .ok header) : kFrameHeaderBytes ≤ bytes.length := by
  unfold decodeFrameHeader at h
  exact Nat.not_lt.mp (outcome_check_eq_ok.mp h).1

/-- The header is read off the front of the bytes. -/
theorem decodeFrameHeader_take {bytes : Text} {count : ℕ} (hc : kFrameHeaderBytes ≤ count)
    (h : count ≤ bytes.length) : decodeFrameHeader (bytes.take count) = decodeFrameHeader bytes := by
  have hlen : (bytes.take count).length = count := List.length_take_of_le h
  have happend := decodeFrameHeader_append (by rw [hlen]; exact hc) (bytes.drop count)
  rw [List.take_append_drop] at happend
  exact happend.symm

theorem loadU32_take {bytes : Text} {offset count : ℕ} (hc : offset + 4 ≤ count)
    (h : count ≤ bytes.length) : loadU32 (bytes.take count) offset = loadU32 bytes offset := by
  have hlen : (bytes.take count).length = count := List.length_take_of_le h
  have happend := loadU32_append (hc.trans_eq hlen.symm) (bytes.drop count)
  rw [List.take_append_drop] at happend
  exact happend.symm

/-- A header and a payload that fit together are decoded. -/
theorem decodeFrame_append {header payload : Text} {blank : Frame}
    (hlen : header.length = kFrameHeaderBytes)
    (hd : decodeFrameHeader header = .ok (blank, payload.length))
    (hsum : crc32c payload = loadU32 header 16) :
    decodeFrame (header ++ payload) = .ok { blank with payload } := by
  have hpayload : ((header ++ payload).drop kFrameHeaderBytes).take payload.length = payload := by
    rw [List.drop_left' hlen, List.take_length]
  refine decodeFrame_eq_ok.mpr ⟨blank, payload.length, ?_, ?_, ?_, ?_⟩
  · rw [decodeFrameHeader_append (Nat.le_of_eq hlen.symm), hd]
  · rw [List.length_append, hlen]
  · rw [hpayload, hsum, loadU32_append (by rw [hlen, kFrameHeaderBytes])]
  · rw [hpayload]

theorem encodeFrame_eq_ok {frame : Frame} {bytes : Text} :
    encodeFrame frame = .ok bytes ↔ frame.payload.length ≤ kMaxFrameBytes ∧
      bytes = [writeU32 kFrameMagic, writeU16 kWireProtocolVersion, writeU16 frame.type.code,
        writeU16 frame.flags, writeU16 0, writeU32 (UInt32.ofNat frame.payload.length),
        writeU32 (crc32c frame.payload)].flatten ++ frame.payload := by
  unfold encodeFrame
  split_ifs with h
  · exact ⟨nofun, fun hc => absurd h (Nat.not_lt.mpr hc.1)⟩
  · exact ⟨fun hb => ⟨Nat.not_lt.mp h, (Except.ok.inj hb).symm⟩, fun hb => congrArg _ hb.2.symm⟩

theorem encodeFrame_length {frame : Frame} {bytes : Text} (h : encodeFrame frame = .ok bytes) :
    bytes.length = kFrameHeaderBytes + frame.payload.length := by
  obtain ⟨-, rfl⟩ := encodeFrame_eq_ok.mp h
  simp only [List.flatten_cons, List.flatten_nil, List.append_nil, List.length_append,
    writeU32_length, writeU16_length, kFrameHeaderBytes]

/-- The header of an encoded frame is accepted. -/
theorem decodeFrameHeader_encodeFrame {frame : Frame} {bytes : Text}
    (h : encodeFrame frame = .ok bytes) :
    decodeFrameHeader bytes = .ok ({ frame with payload := [] }, frame.payload.length) := by
  have hlen := encodeFrame_length h
  obtain ⟨hmax, hb⟩ := encodeFrame_eq_ok.mp h
  have hcount : (UInt32.ofNat frame.payload.length).toNat = frame.payload.length :=
    UInt32.toNat_ofNat_of_lt' (Nat.lt_of_le_of_lt hmax (by decide))
  have hmagic : loadU32 bytes 0 = kFrameMagic := by
    rw [hb]
    exact @loadU32_field [] _ _ _ 0 rfl
  have hversion : loadU16 bytes 4 = kWireProtocolVersion := by
    rw [hb]
    exact @loadU16_field [writeU32 kFrameMagic] _ _ _ 4 rfl
  have htype : loadU16 bytes 6 = frame.type.code := by
    rw [hb]
    exact @loadU16_field [writeU32 kFrameMagic, writeU16 kWireProtocolVersion] _ _ _ 6 rfl
  have hflags : loadU16 bytes 8 = frame.flags := by
    rw [hb]
    exact @loadU16_field [writeU32 kFrameMagic, writeU16 kWireProtocolVersion,
      writeU16 frame.type.code] _ _ _ 8 rfl
  have hreserved : loadU16 bytes 10 = 0 := by
    rw [hb]
    exact @loadU16_field [writeU32 kFrameMagic, writeU16 kWireProtocolVersion,
      writeU16 frame.type.code, writeU16 frame.flags] _ _ _ 10 rfl
  have hlength : loadU32 bytes 12 = UInt32.ofNat frame.payload.length := by
    rw [hb]
    exact @loadU32_field [writeU32 kFrameMagic, writeU16 kWireProtocolVersion,
      writeU16 frame.type.code, writeU16 frame.flags, writeU16 0] _ _ _ 12 rfl
  unfold decodeFrameHeader
  rw [if_neg (by omega), hmagic, hversion, htype, hflags, hreserved, hlength, FrameType.ofCode_code,
    hcount]
  simp only [ne_eq, not_true_eq_false, if_false]
  rw [if_neg (Nat.not_lt.mpr hmax)]
  rfl

/-- A frame is decoded off the front of its bytes. -/
theorem decodeFrame_encodeFrame {frame : Frame} {bytes : Text} (h : encodeFrame frame = .ok bytes)
    (rest : Text) : decodeFrame (bytes ++ rest) = .ok frame := by
  have hlen := encodeFrame_length h
  have hheader : decodeFrameHeader (bytes ++ rest) =
      .ok ({ frame with payload := [] }, frame.payload.length) := by
    rw [decodeFrameHeader_append (by omega), decodeFrameHeader_encodeFrame h]
  obtain ⟨-, hb⟩ := encodeFrame_eq_ok.mp h
  have hpayload : ((bytes ++ rest).drop kFrameHeaderBytes).take frame.payload.length =
      frame.payload := by
    rw [take_drop_append (Nat.le_of_eq hlen.symm), hb,
      List.drop_left' (by rfl), List.take_length]
  have hchecksum : loadU32 (bytes ++ rest) 16 = crc32c frame.payload := by
    rw [loadU32_append (by rw [hlen, kFrameHeaderBytes]; omega)]
    rw [hb]
    exact @loadU32_field [writeU32 kFrameMagic, writeU16 kWireProtocolVersion,
      writeU16 frame.type.code, writeU16 frame.flags, writeU16 0,
      writeU32 (UInt32.ofNat frame.payload.length)] [] _ _ 16 rfl
  rw [decodeFrame_of_header hheader, hpayload, hchecksum, if_neg, if_neg (not_not.mpr rfl)]
  rw [List.length_append]
  omega

end IncastGovernor
