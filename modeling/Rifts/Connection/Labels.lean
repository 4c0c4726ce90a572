import Rifts.Bytes.BigEndian
import Rifts.Client.Epochs
import Rifts.Connection.Reader

/-! The codec that a frame of the server names, and the bytes it carries. -/
namespace Rifts

/-- `decode_value` of the two codecs. The CBOR reader is that of `ciborium`. -/
def decodeValue (J : SerdeJson) (cbor : Bytes → Except String Json) :
    EncodingFormat → Bytes → Except RiftError Json
  | .json, bytes =>
    if 1048576 < bytes.length then .error (.frame (.payloadTooLarge bytes.length 1048576))
    else (J.fromSlice bytes).mapError .other
  | .cbor, bytes => (cbor bytes).mapError .other

/-- The frames with a body that the server emits once a codec is negotiated. -/
inductive Emission
  | welcome (session : Session) (resume : Option String) (now : Int64)
  | ready (session : Session) (now : Int64)
  | subscribeAck (request : Frame) (topic : String) (id : UInt64)
  | unsubscribeAck (request : Frame) (id : UInt64) (removed : Bool)
  | ack (a : Ack)
  | error (original : Frame) (e : RiftError)

namespace Emission

def body (cfg : ServerConfig) (codec : EncodingFormat) : Emission → Json
  | welcome session resume now => welcomeBody session codec resume cfg now
  | ready session now => readyBody session cfg now
  | subscribeAck _ topic id => subscribeAckBody topic id
  | unsubscribeAck _ id removed => unsubscribeAckBody id removed
  | ack a => ackBody a
  | error original e => errorBody original e

def frame (J : SerdeJson) (cfg : ServerConfig) (codec : EncodingFormat) : Emission → Frame
  | welcome session resume now => buildWelcomeFrame J session codec resume cfg now
  | ready session now => buildReadyFrame J session cfg codec now
  | subscribeAck request topic id =>
    controlReply codec request (some (J.toVec (subscribeAckBody topic id)))
  | unsubscribeAck request id removed =>
    controlReply codec request (some (J.toVec (unsubscribeAckBody id removed)))
  | ack a => ackFrame J codec a
  | error original e => errorFrame J original e

def isError : Emission → Bool
  | error .. => true
  | _ => false

variable {J : SerdeJson} {cfg : ServerConfig} {codec : EncodingFormat} {e : Emission}

/-- Every builder writes JSON. -/
theorem payload_frame : (e.frame J cfg codec).payload = some (J.toVec (e.body cfg codec)) := by
  cases e <;> rfl

/-- Every builder but that of errors names the negotiated codec. -/
theorem codec_frame : (e.frame J cfg codec).codec = if e.isError then .json else codec := by
  cases e <;> rfl

theorem body_object : ∃ fields, e.body cfg codec = .object fields := by
  cases e <;> exact ⟨_, rfl⟩

end Emission

section Sources

variable {J : SerdeJson} {cfg : ServerConfig} {env : Env} {adm : Admission} {st : SessionStore}
  {codec : EncodingFormat} {O L D S : Type} {f : Frame}

theorem sent_of_write {w : Wire} (hf : f ∈ (w.write env g).1.sent) : f ∈ w.sent ∨ f = g := by
  unfold Wire.write at hf
  split at hf
  · simpa using hf
  · exact .inl hf

/-- A greeting, whether it succeeds or not, sends nothing but its two bodies and what is
replayed. -/
theorem emission_of_greet {r : Nat} {resume : Option ResumeDecision}
    (hf : f ∈ (greet J cfg env adm st r resume).2.1.sent) :
    f.frameType = .data ∨ ∃ e : Emission, f = e.frame J cfg adm.codec := by
  unfold greet at hf
  dsimp only at hf
  set welcome := buildWelcomeFrame J ((st.setState r .ready env.now).heap r) adm.codec
    (resume.map resumeResult) cfg env.now with hwelcome
  have hfirst {w : Wire} {res : Except RiftError Unit}
      (hw : Wire.write {} env welcome = (w, res)) (hf : f ∈ w.sent) :
      ∃ e : Emission, f = e.frame J cfg adm.codec := by
    rcases sent_of_write (w := {}) (g := welcome) (by rw [hw]; exact hf) with hnone | rfl
    · simp at hnone
    · exact ⟨.welcome _ _ _, rfl⟩
  split at hf
  · next w e hw => exact .inr (hfirst hw hf)
  · next w hw =>
    obtain ⟨fs, hfs, hreplay⟩ : w.Replays (replayMissed env w resume adm.hello.lastOffsets) :=
      replays_replayMissed w resume adm.hello.lastOffsets
    have hrest {w' : Wire} {res : Except RiftError Unit} {ready : Frame}
        (hready : ready = (Emission.ready ((st.setState r .ready env.now).heap r) env.now).frame
          J cfg adm.codec)
        (hw' : (replayMissed env w resume adm.hello.lastOffsets).write env ready = (w', res))
        (hf : f ∈ w'.sent) : f.frameType = .data ∨ ∃ e : Emission, f = e.frame J cfg adm.codec := by
      rcases sent_of_write (by rw [hw']; exact hf) with hbefore | rfl
      · rw [hreplay] at hbefore
        rcases List.mem_append.mp hbefore with hold | hnew
        · exact .inr (hfirst hw hold)
        · exact .inl (hfs f hnew)
      · exact .inr ⟨_, hready⟩
    split at hf
    · next w' e hw' => exact hrest rfl hw' hf
    · next w' hw' => exact hrest rfl hw' hf

theorem emission_of_handleControl (cfg : ServerConfig) {conn : Nat} {s : ControlState O L D S}
    {x : ControlInput} (hf : f ∈ (handleControl J conn codec s x).2.1) :
    f.payload = none ∨ ∃ e : Emission, f = e.frame J cfg codec := by
  unfold handleControl at hf
  split at hf
  · simp at hf
  · left
    rw [eq_of_mem_trySendReply hf]
    rfl
  · next topic intent _ =>
    right
    split at hf
    · simp at hf
    · next id _ =>
      rw [eq_of_mem_trySendReply hf]
      exact ⟨.subscribeAck x.frame topic id, rfl⟩
  · next id _ =>
    right
    split at hf
    next removed _ =>
    rw [eq_of_mem_trySendReply hf]
    exact ⟨.unsubscribeAck x.frame id removed, rfl⟩
  · simp at hf

theorem emission_of_onDataFrame [OffsetStore O] [LogStore L] [DedupeStore D] [SnapshotStore S]
    (cfg : ServerConfig) {s : ReaderState O L D S} {x : Received}
    (hf : f ∈ (onDataFrame J codec s x).queued) : ∃ e : Emission, f = e.frame J cfg codec := by
  have hreply {a : Ack} (h : f ∈ if x.frame.requiresAck then
      (trySendReply x.room (ackFrame J codec a)).1 else []) :
      ∃ e : Emission, f = e.frame J cfg codec := by
    split at h
    · exact ⟨.ack a, eq_of_mem_trySendReply h⟩
    · simp at h
  unfold onDataFrame at hf
  dsimp only at hf
  split at hf
  · simp at hf
  · split at hf
    · exact hreply hf
    · exact hreply hf

/-- A frame that the reader queues in reply has no body, or is one of these. -/
theorem emission_of_dispatch [OffsetStore O] [LogStore L] [DedupeStore D] [SnapshotStore S]
    (cfg : ServerConfig) {conn : Nat} {sessionId : String} {s : ReaderState O L D S} {x : Received}
    (hf : f ∈ (dispatchReceived J conn codec sessionId s x).queued) :
    f.payload = none ∨ ∃ e : Emission, f = e.frame J cfg codec := by
  have hcontrol {replies : List Frame} {control : ControlState O L D S}
      {res : Except RiftError Unit}
      (h : handleControl J conn codec s.control ⟨x.frame, x.sinkId, x.room⟩ =
        (control, replies, res)) (hf : f ∈ replies) :
      f.payload = none ∨ ∃ e : Emission, f = e.frame J cfg codec :=
    emission_of_handleControl cfg (by rw [h]; exact hf)
  unfold dispatchReceived at hf
  split at hf
  · split at hf
    · next h => exact hcontrol h hf
    · next e h =>
      rcases List.mem_append.mp hf with hreply | herror
      · exact hcontrol h hreply
      · exact .inr ⟨.error x.frame e, eq_of_mem_trySendReply herror⟩
  · exact .inr (emission_of_onDataFrame cfg hf)
  · simp at hf
  · simp at hf
  · simp at hf

end Sources

section Decoding

variable {J : SerdeJson} {cbor : Bytes → Except String Json} {body : Json}

theorem mapError_eq_ok_iff {ε δ α : Type} {x : Except ε α} {g : ε → δ} {a : α} :
    x.mapError g = .ok a ↔ x = .ok a := by
  cases x <;> simp [Except.mapError]

/-- As JSON, a body is read back up to the codec's limit. -/
theorem decodeValue_json_iff (hJ : J.fromSlice (J.toVec body) = .ok body) :
    decodeValue J cbor .json (J.toVec body) = .ok body ↔ (J.toVec body).length ≤ 1048576 := by
  rw [decodeValue]
  split
  · next hlong => exact iff_of_false (by simp) (by omega)
  · next hshort => exact iff_of_true (mapError_eq_ok_iff.mpr hJ) (by omega)

/-- As CBOR, the text of an object is the head of a text string, so it is no object. -/
theorem decodeValue_cbor_ne {fields : List (String × Json)}
    (hcbor : ∀ rest v, cbor (123 :: rest) = .ok v → ∃ s, v = .string s)
    (hbrace : (J.toVec body).head? = some 123) :
    decodeValue J cbor .cbor (J.toVec body) ≠ .ok (.object fields) := by
  obtain ⟨rest, hrest⟩ := List.head?_eq_some_iff.mp hbrace
  rw [decodeValue, hrest, Ne, mapError_eq_ok_iff]
  intro h
  obtain ⟨s, hs⟩ := hcbor rest _ h
  cases hs

end Decoding

theorem negotiate_eq_ok_iff {server client : List EncodingFormat} {codec : EncodingFormat} :
    negotiate server client = .ok codec ↔ client.find? (server.contains ·) = some codec := by
  rw [negotiate]
  cases client.find? (server.contains ·) <;> simp

/-- A frame that the server emits with a body is in the codec it names exactly when it is an
error, or the first codec of the client that the server offers is JSON, and the body is no longer
than the JSON codec takes. Texts of objects begin with a brace, which CBOR reads as the head
of a text string. -/
theorem frame_is_as_labelled_iff (J : SerdeJson) (cbor : Bytes → Except String Json)
    (hcbor : ∀ rest v, cbor (123 :: rest) = .ok v → ∃ s, v = .string s)
    (cfg : ServerConfig) (clientCodecs : List EncodingFormat) (codec : EncodingFormat)
    (hneg : negotiate cfg.serverCodecs clientCodecs = .ok codec) (e : Emission)
    (hJ : J.fromSlice (J.toVec (e.body cfg codec)) = .ok (e.body cfg codec))
    (hbrace : (J.toVec (e.body cfg codec)).head? = some 123) :
    (∃ payload, (e.frame J cfg codec).payload = some payload ∧
      decodeValue J cbor (e.frame J cfg codec).codec payload = .ok (e.body cfg codec)) ↔
    (e.isError = true ∨ clientCodecs.find? (cfg.serverCodecs.contains ·) = some .json) ∧
      (J.toVec (e.body cfg codec)).length ≤ 1048576 := by
  rw [negotiate_eq_ok_iff.mp hneg, Emission.payload_frame, Emission.codec_frame]
  simp only [Option.some.injEq, exists_eq_left']
  cases he : e.isError with
  | true =>
    rw [if_pos rfl, decodeValue_json_iff hJ]
    simp
  | false =>
    cases codec with
    | json =>
      rw [if_neg (by simp), decodeValue_json_iff hJ]
      simp
    | cbor =>
      obtain ⟨fields, hfields⟩ : ∃ fields, e.body cfg .cbor = .object fields :=
        Emission.body_object
      refine iff_of_false ?_ (by simp)
      rw [if_neg (by simp)]
      nth_rewrite 2 [hfields]
      exact decodeValue_cbor_ne hcbor hbrace

/-- CBOR text strings with a length of eight bytes, as `ciborium` reads them; the other items
do not matter here. -/
def cborText : Bytes → Except String Json
  | 123 :: rest =>
    if rest.length < 8 + BigEndian.ofBytes (rest.take 8) then .error "unexpected end of file"
    else
      match String.fromUTF8? ⟨(BigEndian.slice rest 8
          (BigEndian.ofBytes (rest.take 8))).toArray⟩ with
      | some s => .ok (.string s)
      | none => .error "invalid utf-8"
  | _ => .error "unexpected item"

theorem cborText_string (rest : Bytes) (v : Json) (h : cborText (123 :: rest) = .ok v) :
    ∃ s, v = .string s := by
  rw [cborText] at h
  split at h
  · cases h
  · split at h
    · cases h
      exact ⟨_, rfl⟩
    · cases h

/-- An acknowledgement of a message at offset 7. -/
def someAck : Emission :=
  .ack { ackId := "a", messageId := "m", status := .persisted, offset := some 7, serverTime := 5 }

def ackReader : SerdeJson := .reading [someAck.body {} .json]

theorem ack_to_json_client_is_json :
    ∃ payload, (someAck.frame ackReader {} .json).payload = some payload ∧
      decodeValue ackReader cborText (someAck.frame ackReader {} .json).codec payload =
        .ok (someAck.body {} .json) :=
  (frame_is_as_labelled_iff ackReader cborText cborText_string {} [.json, .cbor] .json rfl someAck
    (by simp [ackReader, SerdeJson.reading]) (by decide +kernel)).mpr
    ⟨.inr rfl, by decide +kernel⟩

/-- A client that prefers CBOR is sent the acknowledgement as JSON text under the label of
CBOR, whose reader finds a string that never ends. -/
theorem ack_to_cbor_client_is_mislabelled :
    negotiate (ServerConfig.serverCodecs {}) [.cbor, .json] = .ok .cbor ∧
      (someAck.frame ackReader {} .cbor).codec = .cbor ∧
      (someAck.frame ackReader {} .cbor).payload = some (ackReader.toVec (someAck.body {} .cbor)) ∧
      ∃ e, decodeValue ackReader cborText .cbor (ackReader.toVec (someAck.body {} .cbor)) =
        .error e := by
  refine ⟨rfl, rfl, rfl, .other "unexpected end of file", ?_⟩
  have hbrace : (ackReader.toVec (someAck.body {} .cbor)).head? = some 123 := by decide +kernel
  have hlong : (ackReader.toVec (someAck.body {} .cbor)).tail.length <
      8 + BigEndian.ofBytes ((ackReader.toVec (someAck.body {} .cbor)).tail.take 8) := by
    decide +kernel
  obtain ⟨rest, hrest⟩ := List.head?_eq_some_iff.mp hbrace
  rw [hrest, List.tail_cons] at hlong
  rw [decodeValue, hrest, cborText, if_pos hlong]
  rfl

end Rifts
