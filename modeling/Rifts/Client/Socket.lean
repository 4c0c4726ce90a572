import Rifts.Client.Dispatch
import Rifts.Client.Limits
import Rifts.Connection.Reader
import Rifts.Connection.Replay
import Rifts.Transport.WebSocket

/-! The reading side of `connect`: the greeting a client waits for, and the reader task that takes
the messages after it. -/
namespace Rifts

/-- The errors of `connect` while it waits for the greeting. -/
inductive GreetingError
  | handshake (message : String)
  | protocol (e : RiftError)
  | serialization (message : String)
  | other (message : String)
  deriving DecidableEq, Repr

namespace ClientSocket

/-- One message while the client waits. Only control frames and texts are looked at. -/
def receive (J : SerdeJson) (parts : Option Welcome × Option Ready) :
    WsMessage → Except GreetingError (Option Welcome × Option Ready)
  | .binary data =>
    match decodeBinaryFrame data defaultMaxBinaryPayload with
    | .error e => .error (.protocol e)
    | .ok frame =>
      if frame.frameType ≠ .control then .ok parts
      else
        match frame.payload with
        | none => .ok parts
        | some payload =>
          match J.fromSlice payload with
          | .error e => .error (.serialization e)
          | .ok obj => .ok (Greeting.parseHandshake obj parts)
  | .text text =>
    match J.fromSlice text with
    | .error e => .error (.serialization e)
    | .ok obj => .ok (Greeting.parseHandshake obj parts)
  | .ping _ | .pong _ | .close _ | .other => .ok parts

/-- `await_handshake`: the two parts, and the stream after the message that completed them. -/
def awaitHandshake (J : SerdeJson) :
    WsStream → Option Welcome × Option Ready → Except GreetingError ((Welcome × Ready) × WsStream)
  | [], _ => .error (.handshake "connection closed before Ready")
  | .error e :: _, _ => .error (.other ("read error: " ++ e))
  | .ok message :: rest, parts =>
    match receive J parts message with
    | .error e => .error e
    | .ok (some welcome, some ready) => .ok ((welcome, ready), rest)
    | .ok parts => awaitHandshake J rest parts

def dispatchTextEnvelope (J : SerdeJson) (obj : Json) : List ClientEffect :=
  match (obj.get "type").bind Json.asStr with
  | some "pong" =>
    [.resetMissed, .emit (.pong (((obj.get "timestamp").bind Json.asI64).getD 0))]
  | some "welcome" | some "ready" | some "subscribe_ack" | some "unsubscribe_ack" => []
  | _ =>
    match decodeTextFrame J (J.toVec obj) with
    | .ok frame => dispatchFrame J frame
    | .error _ => []

def onText (J : SerdeJson) (text : Bytes) : List ClientEffect :=
  match J.fromSlice text with
  | .ok obj => dispatchTextEnvelope J obj
  | .error _ =>
    match decodeTextFrame J text with
    | .ok frame => dispatchFrame J frame
    | .error e => [.emit (.error ("text decode: " ++ e.display))]

/-- `reader_task`, to the end of the stream, its first error or a close. -/
def readerTask (J : SerdeJson) : WsStream → List ClientEffect
  | [] => []
  | .error e :: _ => [.emit (.error ("ws read: " ++ e))]
  | .ok message :: rest =>
    match message with
    | .binary data => onBinary J data ++ readerTask J rest
    | .text text => onText J text ++ readerTask J rest
    | .close _ => []
    | .ping _ | .pong _ | .other => readerTask J rest

/-- The parts of the greeting, and what the reader task does with the rest. -/
def connect (J : SerdeJson) (stream : WsStream) :
    Except GreetingError (Welcome × Ready × List ClientEffect) :=
  match awaitHandshake J stream (none, none) with
  | .error e => .error e
  | .ok ((welcome, ready), rest) => .ok (welcome, ready, readerTask J rest)

/-- The frames as the server's connection writes them, each in a WebSocket frame. -/
def onWire (frames : List Frame) : WsParts :=
  frames.map fun f => .ok (.message (WebSocketConnection.sent (.writeFrame f)))

/-- The messages of a client's socket. `connect_async` leaves tungstenite's limits at their
defaults. -/
def incoming (parts : WsParts) : WsStream := WebSocketConfig.receive {} none parts

/-- The frame with its header is within what a client takes in a WebSocket frame. -/
def Fits (f : Frame) : Prop := (encodeFrame f).length ≤ 16777216

instance (f : Frame) : Decidable (Fits f) := inferInstanceAs (Decidable (_ ≤ _))

variable {J : SerdeJson} {parts : Option Welcome × Option Ready} {welcome : Option Welcome}
  {f : Frame} {frames : List Frame} {rest : WsParts}

theorem incoming_of_fits (h : Fits f) :
    incoming (onWire (f :: frames) ++ rest) =
      .ok (WebSocketConnection.sent (.writeFrame f)) :: incoming (onWire frames ++ rest) := by
  refine WebSocketConfig.receive_message ?_ ?_
  · rintro max ⟨⟩
    exact h
  · rintro max ⟨⟩
    exact h.trans (by decide)

theorem incoming_of_not_fits (h : ¬ Fits f) :
    incoming (onWire (f :: frames) ++ rest) =
      [.error (WebSocketConfig.tooLong (encodeFrame f).length 16777216)] :=
  WebSocketConfig.receive_large_frame rfl (Nat.not_le.mp h)

/-- What the socket lets through is small enough for `decode_binary_frame`. -/
theorem receive_encodeFrame (h : Fits f) :
    receive J parts (WebSocketConnection.sent (.writeFrame f)) =
      if f.frameType ≠ .control then .ok parts
      else
        match J.fromSlice (f.payload.getD []) with
        | .error e => .error (.serialization e)
        | .ok obj => .ok (Greeting.parseHandshake obj parts) := by
  have hle : (f.payload.getD []).length ≤ defaultMaxBinaryPayload := by
    rw [Fits, length_encodeFrame] at h
    exact (Nat.le_add_left _ 24).trans h
  simp only [receive, WebSocketConnection.sent, decode_encode_of_le hle (by decide),
    Frame.overWire]

/-- A frame that is too large ends the wait. -/
theorem awaitHandshake_large (h : ¬ Fits f) :
    awaitHandshake J (incoming (onWire (f :: frames) ++ rest)) parts = .error (.other
      ("read error: " ++ WebSocketConfig.tooLong (encodeFrame f).length 16777216)) := by
  rw [incoming_of_not_fits h, awaitHandshake]

/-- A data frame is passed over as long as there was no ready frame. -/
theorem awaitHandshake_data (hf : f.frameType = .data) (hfits : Fits f) :
    awaitHandshake J (incoming (onWire (f :: frames) ++ rest)) (welcome, none) =
      awaitHandshake J (incoming (onWire frames ++ rest)) (welcome, none) := by
  have hreceive : receive J (welcome, none) (WebSocketConnection.sent (.writeFrame f)) =
      .ok (welcome, none) := by
    rw [receive_encodeFrame hfits, if_pos (by simp [hf])]
  simp only [incoming_of_fits hfits, awaitHandshake, hreceive]

theorem awaitHandshake_control {obj : Json} (hf : f.frameType = .control)
    (hp : f.payload = some (J.toVec obj)) (hJ : J.fromSlice (J.toVec obj) = .ok obj)
    (hfits : Fits f) :
    awaitHandshake J (incoming (onWire (f :: frames) ++ rest)) parts =
      match Greeting.parseHandshake obj parts with
      | (some welcome, some ready) => .ok ((welcome, ready), incoming (onWire frames ++ rest))
      | parts => awaitHandshake J (incoming (onWire frames ++ rest)) parts := by
  have hreceive : receive J parts (WebSocketConnection.sent (.writeFrame f)) =
      .ok (Greeting.parseHandshake obj parts) := by
    rw [receive_encodeFrame hfits, if_neg (by simp [hf]), hp]
    simp only [Option.getD_some, hJ]
  simp only [incoming_of_fits hfits, awaitHandshake, hreceive]
  obtain ⟨welcome, ready⟩ := Greeting.parseHandshake obj parts
  cases welcome <;> cases ready <;> rfl

/-- The wait has ended with the error of a frame that is too large. -/
def Refused {α : Type} (frames : List Frame) (result : Except GreetingError α) : Prop :=
  ∃ f ∈ frames, ¬ Fits f ∧ result = .error (.other
    ("read error: " ++ WebSocketConfig.tooLong (encodeFrame f).length 16777216))

/-- Data frames before the ready frame: the client passes over them, or gives up at the first one
that is too large. -/
theorem awaitHandshake_replay (hdata : ∀ f ∈ frames, f.frameType = .data)
    (welcome : Option Welcome) (later : List Frame) (rest : WsParts) :
    ((∀ f ∈ frames, Fits f) ∧
      awaitHandshake J (incoming (onWire (frames ++ later) ++ rest)) (welcome, none) =
        awaitHandshake J (incoming (onWire later ++ rest)) (welcome, none)) ∨
    Refused frames
      (awaitHandshake J (incoming (onWire (frames ++ later) ++ rest)) (welcome, none)) := by
  induction frames with
  | nil => exact .inl ⟨by simp, rfl⟩
  | cons f frames ih =>
    obtain ⟨hf, hdata⟩ := List.forall_mem_cons.mp hdata
    rw [List.cons_append]
    by_cases hfits : Fits f
    · rw [awaitHandshake_data hf hfits]
      refine (ih hdata).imp ?_ ?_
      · rintro ⟨hall, hskip⟩
        exact ⟨List.forall_mem_cons.mpr ⟨hfits, hall⟩, hskip⟩
      · rintro ⟨g, hg, hlarge, herror⟩
        exact ⟨g, List.mem_cons_of_mem f hg, hlarge, herror⟩
    · exact .inr ⟨f, List.mem_cons_self, hfits, awaitHandshake_large hfits⟩

variable {cfg : ServerConfig} {env : Env} {adm : Admission} {st : SessionStore} {r : Nat}
  {resume : Option ResumeDecision}

theorem parseHandshake_welcomeBody {session : Session} {codec : EncodingFormat}
    {result : Option String} {now : Int64} :
    Greeting.parseHandshake (welcomeBody session codec result cfg now) parts =
      (some (.ofJson (welcomeBody session codec result cfg now)), parts.2) := rfl

theorem parseHandshake_readyBody {session : Session} {now : Int64} :
    Greeting.parseHandshake (readyBody session cfg now) parts =
      (parts.1, some (.ofJson (readyBody session cfg now))) := rfl

/-- The greeting of a server, and then anything: the client takes the two parts, and all that is
between them is lost. -/
theorem connect_greeting {session : Session} {codec : EncodingFormat} {result : Option String}
    {now : Int64}
    (hw : J.fromSlice (J.toVec (welcomeBody session codec result cfg now)) =
      .ok (welcomeBody session codec result cfg now))
    (hr : J.fromSlice (J.toVec (readyBody session cfg now)) = .ok (readyBody session cfg now))
    (hdata : ∀ f ∈ frames, f.frameType = .data) {greeting : List Frame}
    (hgreeting : greeting = buildWelcomeFrame J session codec result cfg now ::
      (frames ++ [buildReadyFrame J session cfg codec now]))
    (rest : WsParts) :
    ((∀ f ∈ greeting, Fits f) ∧
      connect J (incoming (onWire greeting ++ rest)) =
        .ok (.ofJson (welcomeBody session codec result cfg now),
          .ofJson (readyBody session cfg now), readerTask J (incoming rest))) ∨
    Refused greeting (connect J (incoming (onWire greeting ++ rest))) := by
  subst hgreeting
  by_cases hwelcome : Fits (buildWelcomeFrame J session codec result cfg now)
  swap
  · refine .inr ⟨_, List.mem_cons_self, hwelcome, ?_⟩
    rw [connect, awaitHandshake_large hwelcome]
  rw [connect, awaitHandshake_control rfl rfl hw hwelcome, parseHandshake_welcomeBody]
  dsimp only
  obtain ⟨hfits, hskip⟩ | ⟨f, hf, hlarge, herror⟩ := awaitHandshake_replay (J := J) hdata
    (some (.ofJson (welcomeBody session codec result cfg now)))
    [buildReadyFrame J session cfg codec now] rest
  · rw [hskip]
    by_cases hready : Fits (buildReadyFrame J session cfg codec now)
    · refine .inl ⟨?_, ?_⟩
      · simp only [List.forall_mem_cons, List.forall_mem_append]
        exact ⟨hwelcome, hfits, hready, by simp⟩
      · rw [awaitHandshake_control rfl rfl hr hready, parseHandshake_readyBody]
        rfl
    · refine .inr ⟨buildReadyFrame J session cfg codec now, by simp, hready, ?_⟩
      rw [awaitHandshake_large hready]
  · rw [herror]
    exact .inr ⟨f, by simp [hf], hlarge, rfl⟩

/-- What a handshake that returns a session has sent, in terms of that session. -/
theorem sent_of_handshake_ok (ha : checkHello J cfg env = .ok adm)
    (h : (handshake J cfg env st).2.2 = .ok r) :
    ∃ frames, (∀ f ∈ frames, f.frameType = .data) ∧
      (handshake J cfg env st).2.1.sent =
        buildWelcomeFrame J ((handshake J cfg env st).1.heap r) adm.codec
            (reported J cfg env st) cfg env.now ::
          (frames ++ [buildReadyFrame J ((handshake J cfg env st).1.heap r) cfg adm.codec
            env.now]) := by
  rcases hb : bindSession env adm st with ⟨st', e | ⟨q, resume⟩⟩
  · rw [handshake_unbound ha hb] at h
    cases h
  · have hreported : reported J cfg env st = resume.map resumeResult := by
      simp only [reported, ha, hb]
    rw [handshake_bound ha hb] at h ⊢
    rcases greet_cases J cfg env adm st' q resume with ⟨w, e, hg⟩ | ⟨w, hg⟩
    · rw [hg] at h
      cases h
    · obtain rfl : q = r := by
        rw [hg] at h
        exact Except.ok.inj h
      obtain ⟨frames, hdata, hsent⟩ := sent_of_greet_ok h
      refine ⟨frames, hdata, ?_⟩
      rw [hsent, hreported, hg]
      -- the session becomes Active after both frames were built from it, which read neither its
      -- state nor its clock
      have hid : (((st'.setState q .ready env.now).setState q .active env.now).heap q).id =
          ((st'.setState q .ready env.now).heap q).id := id_setState
      have hepoch : (((st'.setState q .ready env.now).setState q .active env.now).heap q).epoch =
          ((st'.setState q .ready env.now).heap q).epoch := by simp
      simp only [buildWelcomeFrame, buildReadyFrame, welcomeBody, readyBody, hid, hepoch]

/-- Whatever was missed while a client was away, a resume brings it to the client and no
further. The server writes what the log has of each topic between welcome and ready; there the
client looks only at control frames, and its reader task sees what comes after. One missed
message that is larger than the client takes, and it cannot resume at all. -/
theorem resume_loses_missed {σ : Type} (J : SerdeJson) (cfg : ServerConfig) (b : DefaultBroker σ)
    (env : Env) (hb : env.Over b) (hwrite : ∀ n, env.write n = .ok ()) (st : SessionStore)
    (adm : Admission) (hadm : checkHello J cfg env = .ok adm)
    (hkeys : (adm.hello.lastOffsets.map Prod.fst).Nodup)
    (hreport : reported J cfg env st = some "partial" ∨
      reported J cfg env st = some "replaying")
    (r : Nat) (session : Session) (hok : (handshake J cfg env st).2.2 = .ok r)
    (hsession : (handshake J cfg env st).1.heap r = session)
    (hw : J.fromSlice
        (J.toVec (welcomeBody session adm.codec (reported J cfg env st) cfg env.now)) =
      .ok (welcomeBody session adm.codec (reported J cfg env st) cfg env.now))
    (hr : J.fromSlice (J.toVec (readyBody session cfg env.now)) =
      .ok (readyBody session cfg env.now))
    (later : WsParts) :
    (∀ topic last, (topic, last) ∈ adm.hello.lastOffsets →
      replayedOn J cfg env st topic = b.missedFrames topic last) ∧
    ((∀ f ∈ (handshake J cfg env st).2.1.sent, (encodeFrame f).length ≤ 16777216) →
      ∃ welcome ready, welcome.sessionId = session.id ∧ ready.epoch = session.epoch ∧
        connect J (incoming (onWire (handshake J cfg env st).2.1.sent ++ later)) =
          .ok (welcome, ready, readerTask J (incoming later))) ∧
    ((∃ f ∈ (handshake J cfg env st).2.1.sent, 16777216 < (encodeFrame f).length) →
      ∃ n, connect J (incoming (onWire (handshake J cfg env st).2.1.sent ++ later)) =
        .error (.other ("read error: " ++ WebSocketConfig.tooLong n 16777216))) := by
  refine ⟨fun topic last => replayedOn_of_reported hb hwrite hadm hkeys hreport, ?_⟩
  obtain ⟨frames, hdata, hsent⟩ := sent_of_handshake_ok hadm hok
  rw [hsession] at hsent
  obtain ⟨hfits, hconnect⟩ | ⟨f, hf, hlarge, herror⟩ := connect_greeting hw hr hdata hsent later
  · refine ⟨fun _ => ⟨_, _, ?_, ?_, hconnect⟩, ?_⟩
    · rw [Limits.ofJson_welcomeBody]
    · rw [Limits.ofJson_readyBody]
    · rintro ⟨f, hf, hlarge⟩
      exact absurd (hfits f hf) (Nat.not_le.mpr hlarge)
  · exact ⟨fun hfits => absurd (hfits f hf) hlarge, fun _ => ⟨_, herror⟩⟩

/-- The session that Alice resumes. -/
def resumedSession : Session := { Session.new "s" "alice" 0 with epoch := 2, state := .active }

def resumeReader : SerdeJson :=
  .reading [returnBody 1, welcomeBody resumedSession .json (some "partial") {} 0,
    readyBody resumedSession {} 0]

set_option maxRecDepth 4000 in
/-- Alice has missed two messages. Both are sent to her, her client has its session back, and
nothing was dispatched. -/
theorem two_missed_are_lost :
    (threeMessages .durable).missedFrames "t" 1 = [replayFrame "t" [2], replayFrame "t" [3]] ∧
      replayedOn resumeReader {} (returnEnv 1 (threeMessages .durable)) awayStore "t" =
        [replayFrame "t" [2], replayFrame "t" [3]] ∧
      ∃ welcome ready, welcome.sessionId = "s" ∧ ready.epoch = 2 ∧
        connect resumeReader (incoming (onWire (handshake resumeReader {}
          (returnEnv 1 (threeMessages .durable)) awayStore).2.1.sent)) =
            .ok (welcome, ready, []) := by
  have hreads (v : Json) (hv : v ∈ [returnBody 1,
      welcomeBody resumedSession .json (some "partial") {} 0, readyBody resumedSession {} 0]) :
      resumeReader.fromSlice (resumeReader.toVec v) = .ok v :=
    SerdeJson.fromSlice_reading_of_mem (by decide +kernel) hv
  have hw := hreads (welcomeBody resumedSession .json (some "partial") {} 0) (by simp)
  have hr := hreads (readyBody resumedSession {} 0) (by simp)
  have hmissed : (threeMessages .durable).missedFrames "t" 1 =
    [replayFrame "t" [2], replayFrame "t" [3]] := by decide +kernel
  have hfits : ∀ f ∈ (handshake resumeReader {} (returnEnv 1 (threeMessages .durable))
      awayStore).2.1.sent, (encodeFrame f).length ≤ 16777216 := by
    decide +kernel
  obtain ⟨hreplayed, htaken, -⟩ := resume_loses_missed resumeReader {} (threeMessages .durable)
    (returnEnv 1 (threeMessages .durable)) ⟨rfl, rfl⟩ (fun _ => rfl) awayStore _ rfl (by decide)
    (.inl rfl) 0 resumedSession rfl rfl hw hr []
  refine ⟨hmissed, hmissed ▸ hreplayed "t" 1 (by decide), ?_⟩
  rw [List.append_nil] at htaken
  exact htaken hfits

end ClientSocket

end Rifts
