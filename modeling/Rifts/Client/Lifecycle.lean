import Rifts.Core.FrameCodec
import Rifts.Core.Json
import Rifts.Transition.Pool

/-! The connection lifecycle of `RiftClient`: calls of `connect` and `close`, the monitor
of a connection and its `try_reconnect`, as tasks that run side by side. -/
namespace Rifts

/-- The last offsets are in the order of their topics. The delay between attempts is left
to the scheduler. -/
structure RiftClientConfig where
  clientId : String := ""
  token : String := ""
  sessionId : Option String := none
  epoch : UInt32 := 1
  codecs : List EncodingFormat := [.cbor, .json]
  features : List String := ["resume"]
  lastOffsets : List (String × Int64) := []
  autoReconnect : Bool := true
  maxReconnectAttempts : UInt32 := 10
  deriving DecidableEq, Repr

def controlFrame (J : SerdeJson) (now : Int64) (id : UInt64) (payload : Json) : Frame where
  version := 0x0100
  frameId := id
  frameType := .control
  codec := .json
  timestamp := now
  payload := some (J.toVec payload)

def helloPayload (cfg : RiftClientConfig) : Json :=
  .object [("protocol", .string "rift"), ("version", .number (.posInt 0x0100)),
    ("client_id", .string cfg.clientId), ("session_id", .ofOptStr cfg.sessionId),
    ("epoch", .number (.posInt cfg.epoch.toUInt64)),
    ("codecs", .array (cfg.codecs.map fun c => .string c.name)),
    ("auth_modes", .array [.string "bearer"]), ("token", .string cfg.token),
    ("last_offsets", .object (cfg.lastOffsets.map fun x => (x.1, .ofI64 x.2))),
    ("sdk", .object [("name", .string "rifts-client"), ("version", .string "0.4.1")]),
    ("features", .array (cfg.features.map .string))]

def helloFrame (J : SerdeJson) (now : Int64) (id : UInt64) (cfg : RiftClientConfig) : Frame :=
  controlFrame J now id (helloPayload cfg)

/-- The events of the lifecycle. -/
inductive LifecycleEvent
  | connected (sessionId : String) (epoch : UInt32)
  | disconnected (code : UInt16) (reason : String)
  | reconnecting (attempt : Nat)
  | error (message : String)
  deriving DecidableEq, Repr

inductive ConnectError
  | alreadyConnected | webSocket | handshake
  deriving DecidableEq, Repr

/-- A connection is lost when its reader task has ended and notified its monitor. -/
structure ConnectionInner where
  sessionId : String
  epoch : UInt32
  lost : Bool := false
  deriving DecidableEq, Repr

/-- The session and epoch of a hello, and the epoch of the last Ready that the client had
received for that session. -/
structure SentHello where
  sessionId : Option String
  epoch : UInt32
  ready : Option UInt32
  deriving DecidableEq, Repr

/-- The slot `inner` holds the number of a connection. Its write lock is taken by
`connect` over its whole handshake. Besides what the client keeps there is its history:
the connections, the events, the Ready frames received with their sessions, the attempts
of `try_reconnect` since the last of them, and the hellos. -/
structure RiftClient where
  config : RiftClientConfig
  inner : Option Nat
  closed : Bool
  locked : Bool
  conns : List ConnectionInner
  events : List LifecycleEvent
  readies : List (String × UInt32)
  bumps : Nat
  hellos : List SentHello

namespace RiftClient

def new (config : RiftClientConfig) : RiftClient := ⟨config, none, false, false, [], [], [], 0, []⟩

def emit (c : RiftClient) (e : LifecycleEvent) : RiftClient := { c with events := c.events ++ [e] }

def lastReady (c : RiftClient) (sessionId : String) : Option UInt32 :=
  ((c.readies.filter fun r => r.1 = sessionId).getLast?).map Prod.snd

/-- The epoch of the last Ready for the session that the client would resume. -/
def readyEpoch (c : RiftClient) : Option UInt32 := c.config.sessionId.bind c.lastReady

def sendHello (c : RiftClient) : RiftClient :=
  { c with hellos := c.hellos ++ [⟨c.config.sessionId, c.config.epoch, c.readyEpoch⟩] }

/-- What `connection::connect` does once it has Welcome and Ready. -/
def establish (c : RiftClient) (sessionId : String) (epoch : UInt32) : RiftClient :=
  { c with
    config := { c.config with sessionId := some sessionId, epoch := epoch }
    conns := c.conns ++ [⟨sessionId, epoch, false⟩]
    events := c.events ++ [.connected sessionId epoch]
    readies := c.readies ++ [(sessionId, epoch)]
    bumps := 0 }

/-- Every attempt of `try_reconnect` counts the epoch up. -/
def bumpEpoch (c : RiftClient) : RiftClient :=
  { c with
    config := { c.config with epoch := c.config.epoch + 1 }
    bumps := c.bumps + 1 }

end RiftClient

/-- Where a task stands. A call of `connect` that succeeds goes on as the monitor it
spawns, and a monitor whose connection is lost as `try_reconnect`. -/
inductive ClientPhase
  | connecting
  | dialing
  | greeting
  | failed (e : ConnectError)
  | waiting (conn : Nat)
  | woken
  | looping (attempt : Nat)
  | sleeping (attempt : Nat)
  | redialing (attempt : Nat)
  | regreeting (attempt : Nat)
  | installing (conn : Nat) (sessionId : String) (epoch : UInt32)
  | closing
  | emptying
  | reading (conn : Nat)
  | done
  deriving DecidableEq, Repr

/-- Whether the WebSocket opens and takes the hello, and the session and epoch of the
Welcome and Ready that come back, if they do. -/
structure ClientInput where
  opened : Bool := true
  answer : Option (String × UInt32) := none
  deriving DecidableEq, Repr

/-- The calls of the user, and the end of a connection. -/
inductive ClientCall
  | connect | close
  | lose (conn : Nat)
  deriving DecidableEq, Repr

namespace ClientPhase

def start : ClientCall → ClientPhase
  | .connect => connecting
  | .close => closing
  | .lose conn => reading conn

def next (c : RiftClient) (phase : ClientPhase) (input : ClientInput) :
    Option (RiftClient × ClientPhase) :=
  match phase with
  | connecting =>
    if c.locked then none
    else if c.inner.isSome then some (c, failed .alreadyConnected)
    else some ({ c with closed := false, locked := true }, dialing)
  | dialing =>
    if input.opened then some (c.sendHello, greeting)
    else some ({ c with locked := false }, failed .webSocket)
  | greeting =>
    match input.answer with
    | none => some ({ c with locked := false }, failed .handshake)
    | some (sessionId, epoch) =>
      some ({ c.establish sessionId epoch with inner := some c.conns.length, locked := false },
        waiting c.conns.length)
  | waiting n =>
    if c.conns[n]?.any fun conn => conn.lost then
      some (c.emit (.disconnected 1006 "connection lost"), woken)
    else none
  | woken =>
    if !c.closed && c.config.autoReconnect then some (c, looping 1) else some (c, done)
  | looping k =>
    if c.config.maxReconnectAttempts.toNat < k then
      some (c.emit (.error ("max reconnect attempts (" ++
        toString c.config.maxReconnectAttempts.toNat ++ ") exceeded")), done)
    else if c.closed then some (c, done)
    else some (c.emit (.reconnecting k), sleeping k)
  | sleeping k => if c.closed then some (c, done) else some (c.bumpEpoch, redialing k)
  | redialing k =>
    if input.opened then some (c.sendHello, regreeting k) else some (c, looping (k + 1))
  | regreeting k =>
    match input.answer with
    | none => some (c, looping (k + 1))
    | some (sessionId, epoch) =>
      some (c.establish sessionId epoch, installing c.conns.length sessionId epoch)
  | installing n sessionId epoch =>
    if c.locked then none
    else some ({ c.emit (.connected sessionId epoch) with inner := some n }, done)
  | closing => some ({ c with closed := true }, emptying)
  | emptying => if c.locked then none else some ({ c with inner := none }, done)
  | reading n =>
    match c.conns[n]? with
    | none => none
    | some conn =>
      if conn.lost then none
      else some ({ c with conns := c.conns.set n { conn with lost := true } }, done)
  | failed _ | done => none

def program : Transition.Program RiftClient ClientPhase ClientCall ClientInput := ⟨start, next⟩

/-- `next`, one rule a step. -/
inductive Moves : RiftClient → ClientPhase → ClientInput → RiftClient → ClientPhase → Prop
  | refuse {c input} : Moves c connecting input c (failed .alreadyConnected)
  | lock {c input} (h : c.inner = none) :
      Moves c connecting input { c with closed := false, locked := true } dialing
  | dialFailed {c input} (h : input.opened = false) :
      Moves c dialing input { c with locked := false } (failed .webSocket)
  | dial {c input} (h : input.opened = true) : Moves c dialing input c.sendHello greeting
  | greetFailed {c input} : Moves c greeting input { c with locked := false } (failed .handshake)
  | greet {c input} (sessionId epoch) :
      Moves c greeting input
        { c.establish sessionId epoch with inner := some c.conns.length, locked := false }
        (waiting c.conns.length)
  | wake {c input} (n) :
      Moves c (waiting n) input (c.emit (.disconnected 1006 "connection lost")) woken
  | rest {c input} (h : c.closed = true ∨ c.config.autoReconnect = false) :
      Moves c woken input c done
  | reconnect {c input} : Moves c woken input c (looping 1)
  | giveUp {c input} (k e) (h : c.config.maxReconnectAttempts.toNat < k) :
      Moves c (looping k) input (c.emit (.error e)) done
  | halt {c input} (k) (h : c.closed = true) : Moves c (looping k) input c done
  | attempt {c input} (k) : Moves c (looping k) input (c.emit (.reconnecting k)) (sleeping k)
  | haltAsleep {c input} (k) (h : c.closed = true) : Moves c (sleeping k) input c done
  | bump {c input} (k) : Moves c (sleeping k) input c.bumpEpoch (redialing k)
  | redialFailed {c input} (k) (h : input.opened = false) :
      Moves c (redialing k) input c (looping (k + 1))
  | redial {c input} (k) (h : input.opened = true) :
      Moves c (redialing k) input c.sendHello (regreeting k)
  | regreetFailed {c input} (k) : Moves c (regreeting k) input c (looping (k + 1))
  | regreet {c input} (k sessionId epoch) :
      Moves c (regreeting k) input (c.establish sessionId epoch)
        (installing c.conns.length sessionId epoch)
  | install {c input} (n sessionId epoch) :
      Moves c (installing n sessionId epoch) input
        { c.emit (.connected sessionId epoch) with inner := some n } done
  | close {c input} : Moves c closing input { c with closed := true } emptying
  | empty {c input} : Moves c emptying input { c with inner := none } done
  | lose {c input} (n conns) : Moves c (reading n) input { c with conns } done

theorem moves_of_next {c c' : RiftClient} {u u' : ClientPhase} {input : ClientInput}
    (h : next c u input = some (c', u')) : Moves c u input c' u' := by
  cases u with
  | connecting =>
    simp only [next] at h
    split at h
    · cases h
    · split at h
      · cases h
        exact .refuse
      · next hinner =>
        cases h
        exact .lock (by simpa using hinner)
  | dialing =>
    simp only [next] at h
    split at h
    · next hopened =>
      cases h
      exact .dial hopened
    · next hopened =>
      cases h
      exact .dialFailed (by simpa using hopened)
  | greeting =>
    simp only [next] at h
    split at h
    · cases h
      exact .greetFailed
    · cases h
      exact .greet _ _
  | waiting n =>
    simp only [next] at h
    split at h
    · cases h
      exact .wake n
    · cases h
  | woken =>
    simp only [next] at h
    split at h
    · cases h
      exact .reconnect
    · next hrest =>
      cases h
      exact .rest (by simpa [Decidable.imp_iff_not_or] using hrest)
  | looping k =>
    simp only [next] at h
    split at h
    · next hk =>
      cases h
      exact .giveUp k _ hk
    · split at h
      · next hclosed =>
        cases h
        exact .halt k hclosed
      · cases h
        exact .attempt k
  | sleeping k =>
    simp only [next] at h
    split at h
    · next hclosed =>
      cases h
      exact .haltAsleep k hclosed
    · cases h
      exact .bump k
  | redialing k =>
    simp only [next] at h
    split at h
    · next hopened =>
      cases h
      exact .redial k hopened
    · next hopened =>
      cases h
      exact .redialFailed k (by simpa using hopened)
  | regreeting k =>
    simp only [next] at h
    split at h
    · cases h
      exact .regreetFailed k
    · cases h
      exact .regreet k _ _
  | installing n sessionId epoch =>
    simp only [next] at h
    split at h
    · cases h
    · cases h
      exact .install n sessionId epoch
  | closing =>
    cases h
    exact .close
  | emptying =>
    simp only [next] at h
    split at h
    · cases h
    · cases h
      exact .empty
  | reading n =>
    simp only [next] at h
    split at h
    · cases h
    · split at h
      · cases h
      · cases h
        exact .lose n _
  | failed | done => cases h

end ClientPhase

namespace RiftClient

open Transition

abbrev Tasks := Pool RiftClient ClientPhase

abbrev Act := Pool.Act ClientCall ClientInput

def step (p : Tasks) (a : Act) : Option Tasks := Pool.step ClientPhase.program p a

/-- A call of `connect` that succeeds, and the loss of its connection. -/
def firstLoss : List Act :=
  [.spawn .connect, .advance 0 {}, .advance 0 {}, .advance 0 { answer := some ("s", 1) },
    .spawn (.lose 0), .advance 1 {}]

/-- After the first loss `try_reconnect` sends its hello over a new connection. -/
def lostAndBack : List Act :=
  firstLoss ++ [.advance 0 {}, .advance 0 {}, .advance 0 {}, .advance 0 {}, .advance 0 {}]

end RiftClient

end Rifts
