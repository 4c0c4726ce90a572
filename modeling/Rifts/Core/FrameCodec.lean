import Rifts.Bytes.BigEndian
import Rifts.Core.Error
import Rifts.Core.Frame

/-! The binary wire format: a 24-byte header and the payload. -/
namespace Rifts

open BigEndian

def encodeHeader (f : Frame) (payloadLen : Nat) : Bytes :=
  [f.frameType.tag, f.codec.tag] ++ (toBytes 2 f.flags.bits.toNat ++ (toBytes 8 f.frameId.toNat ++
    (toBytes 8 f.timestamp.toUInt64.toNat ++ toBytes 4 payloadLen)))

/-- `encode_frame`. The header has no room for the routing and correlation fields,
and the payload length is cut to 32 bits. -/
def encodeFrame (f : Frame) : Bytes :=
  encodeHeader f (f.payload.getD []).length ++ f.payload.getD []

def defaultMaxBinaryPayload : Nat := 16 * 1024 * 1024

def decodeBinaryFrame (buf : Bytes) (maxPayloadLen : Nat) : Except RiftError Frame :=
  if buf.length < 24 then
    .error (.frame (.frameInvalid ("binary frame too short: " ++ toString buf.length)))
  else
    match FrameType.fromTag (buf.getD 0 0) with
    | none => .error (.frame (.frameInvalid "unknown frame type tag"))
    | some frameType =>
      match EncodingFormat.fromTag (buf.getD 1 0) with
      | none => .error (.frame (.frameInvalid "unknown codec tag"))
      | some codec =>
        let payloadLen := ofBytes (slice buf 20 4)
        if maxPayloadLen < payloadLen then
          .error (.frame (.payloadTooLarge payloadLen maxPayloadLen))
        else if buf.length < 24 + payloadLen then
          .error (.frame (.frameInvalid ("payload truncated: want " ++ toString payloadLen ++
            ", have " ++ toString (buf.length - 24))))
        else
          .ok { version := 0x0100
                frameId := UInt64.ofNat (ofBytes (slice buf 4 8))
                frameType := frameType
                flags := ⟨UInt16.ofNat (ofBytes (slice buf 2 2))⟩
                codec := codec
                timestamp := (UInt64.ofNat (ofBytes (slice buf 12 8))).toInt64
                payload := some (slice buf 24 payloadLen) }

/-- What is left of a frame after the wire, with a payload of the given bytes. -/
def Frame.overWire (f : Frame) (payload : Bytes) : Frame :=
  { version := 0x0100, frameId := f.frameId, frameType := f.frameType, flags := f.flags
    codec := f.codec, timestamp := f.timestamp, payload := some payload }

variable {f g : Frame} {buf : Bytes} {max : Nat}

theorem length_encodeHeader {n : Nat} : (encodeHeader f n).length = 24 := by
  simp [encodeHeader]

theorem length_encodeFrame : (encodeFrame f).length = 24 + (f.payload.getD []).length := by
  simp [encodeFrame, length_encodeHeader]

theorem flags_encodeFrame : UInt16.ofNat (ofBytes (slice (encodeFrame f) 2 2)) = f.flags.bits := by
  have h : ofBytes (slice (encodeFrame f) 2 2) = f.flags.bits.toNat % 256 ^ 2 := by
    simp only [encodeFrame, encodeHeader, List.append_assoc]
    exact ofBytes_slice_append rfl
  rw [h, Nat.mod_eq_of_lt (b := 256 ^ 2) f.flags.bits.toNat_lt, UInt16.ofNat_toNat]

theorem frameId_encodeFrame : UInt64.ofNat (ofBytes (slice (encodeFrame f) 4 8)) = f.frameId := by
  have h : ofBytes (slice (encodeFrame f) 4 8) = f.frameId.toNat % 256 ^ 8 := by
    simp only [encodeFrame, encodeHeader, List.append_assoc]
    rw [← List.append_assoc]
    exact ofBytes_slice_append (by simp)
  rw [h, Nat.mod_eq_of_lt (b := 256 ^ 8) f.frameId.toNat_lt, UInt64.ofNat_toNat]

theorem timestamp_encodeFrame :
    (UInt64.ofNat (ofBytes (slice (encodeFrame f) 12 8))).toInt64 = f.timestamp := by
  have h : ofBytes (slice (encodeFrame f) 12 8) = f.timestamp.toUInt64.toNat % 256 ^ 8 := by
    simp only [encodeFrame, encodeHeader, List.append_assoc]
    rw [← List.append_assoc, ← List.append_assoc]
    exact ofBytes_slice_append (by simp)
  rw [h, Nat.mod_eq_of_lt (b := 256 ^ 8) f.timestamp.toUInt64.toNat_lt, UInt64.ofNat_toNat]
  rfl

theorem payloadLen_encodeFrame :
    ofBytes (slice (encodeFrame f) 20 4) = (f.payload.getD []).length % 2 ^ 32 := by
  simp only [encodeFrame, encodeHeader, List.append_assoc]
  rw [← List.append_assoc, ← List.append_assoc, ← List.append_assoc]
  exact ofBytes_slice_append (by simp)

theorem payload_encodeFrame {n : Nat} :
    slice (encodeFrame f) 24 n = (f.payload.getD []).take n := by
  have h : (encodeFrame f).drop 24 = f.payload.getD [] := by
    rw [encodeFrame, ← length_encodeHeader (f := f) (n := (f.payload.getD []).length)]
    exact List.drop_left
  rw [slice, h]

/-- Decoding an encoded frame: the header fields come back, the payload is cut to
the length that fits 32 bits, and everything else is gone. -/
theorem decodeBinaryFrame_encodeFrame :
    decodeBinaryFrame (encodeFrame f) max =
      if max < (f.payload.getD []).length % 2 ^ 32 then
        .error (.frame (.payloadTooLarge ((f.payload.getD []).length % 2 ^ 32) max))
      else .ok (f.overWire ((f.payload.getD []).take ((f.payload.getD []).length % 2 ^ 32))) := by
  have hlen := length_encodeFrame (f := f)
  have htype : (encodeFrame f).getD 0 0 = f.frameType.tag := rfl
  have hcodec : (encodeFrame f).getD 1 0 = f.codec.tag := rfl
  have hmod : (f.payload.getD []).length % 2 ^ 32 ≤ (f.payload.getD []).length := Nat.mod_le _ _
  rw [decodeBinaryFrame, if_neg (by omega), htype, hcodec, FrameType.fromTag_tag,
    EncodingFormat.fromTag_tag]
  dsimp only
  rw [payloadLen_encodeFrame, flags_encodeFrame, frameId_encodeFrame, timestamp_encodeFrame,
    payload_encodeFrame, if_neg (show ¬ (encodeFrame f).length < _ by omega)]
  rfl

theorem decode_encode_of_lt (hmax : (f.payload.getD []).length ≤ max)
    (h32 : (f.payload.getD []).length < 2 ^ 32) :
    decodeBinaryFrame (encodeFrame f) max = .ok (f.overWire (f.payload.getD [])) := by
  rw [decodeBinaryFrame_encodeFrame, Nat.mod_eq_of_lt h32, if_neg (by omega), List.take_length]

theorem decode_encode_of_le (hmax : (f.payload.getD []).length ≤ max) (h32 : max < 2 ^ 32) :
    decodeBinaryFrame (encodeFrame f) max = .ok (f.overWire (f.payload.getD [])) :=
  decode_encode_of_lt hmax (hmax.trans_lt h32)

/-- No binary frame carries a topic, an event name or a message id. -/
theorem decodeBinaryFrame_meta (h : decodeBinaryFrame buf max = .ok g) :
    g.topic = none ∧ g.event = none ∧ g.messageId = none ∧ g.ttlMs = none := by
  unfold decodeBinaryFrame at h
  split at h
  · cases h
  · split at h
    · cases h
    · split at h
      · cases h
      · dsimp only at h
        split at h
        · cases h
        · split at h
          · cases h
          · cases h
            exact ⟨rfl, rfl, rfl, rfl⟩

end Rifts
