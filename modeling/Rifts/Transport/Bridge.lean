import Rifts.Sync.Channel
import Rifts.Transition.Run
import Rifts.Transport.WebSocket

/-! The channel bridge for frameworks whose WebSockets stay on their own runtime: a reader task
and a writer task, a bounded channel to each, and the connection between them. -/
namespace Rifts

open Channel Transition

/-- The frameworks that use the bridge. -/
inductive Adapter
  | ntex | actix
  deriving DecidableEq, Repr

/-- What a writer task gets out when it hands a message to its framework. The actix task drops
the future of the send without polling it. -/
def Adapter.hands : Adapter → WsMessage → List WsMessage
  | ntex, message => [message]
  | actix, _ => []

/-- The reader task: it waits for a message of the peer, or for room in the channel. -/
inductive BridgeReader
  | pulling
  | pushing (raw : Bytes)
  | ended
  deriving DecidableEq, Repr

/-- The bytes the reader task holds. -/
def BridgeReader.held : BridgeReader → List Bytes
  | .pushing raw => [raw]
  | .pulling | .ended => []

/-- Both sides of a bridge. The stream has what the framework holds of the peer and the reader task
has not taken. The receiver of the inbox is the connection, that of the outbox is the writer
task. The other fields say what has happened: what has come from the peer and whether it has
hung up, the results of the reads, the calls that wrote with their results, and what the writer
task has put on the wire. -/
structure Bridge (n : Nat) where
  arrived : WsParts
  hungUp : Bool
  stream : WsParts
  reader : BridgeReader
  inbox : Bounded Bytes n
  outbox : Bounded Bytes n
  results : List (Except RiftError Frame)
  written : List (WriteCall × Except RiftError Unit)
  wire : List WsMessage

namespace Bridge

variable {n : Nat}

/-- The bytes the reader task makes of a frame. Pings, pongs and the parts of a message are
skipped. -/
def tag : WsPart → Option Bytes
  | .message (.binary data) => some (66 :: data)
  | .message (.text data) => some (84 :: data)
  | .message (.close _) => some [67]
  | .message (.ping _) | .message (.pong _) | .message .other => none
  | .first .. | .next _ | .last _ => none

/-- `BridgeConnection::read_frame` on bytes it has received. -/
def readRaw (J : SerdeJson) : Bytes → Except RiftError Frame
  | 66 :: data => decodeBinaryFrame data defaultMaxBinaryPayload
  | 84 :: data => decodeTextFrame J data
  | 67 :: _ => .error (.session .closed)
  | _ => .error (.frame (.frameInvalid "invalid bridge frame tag"))

/-- The bytes of `write_frame` and `close`. -/
def rawOf : WriteCall → Bytes
  | .writeFrame f => 66 :: encodeFrame f
  | .close code reason =>
    67 :: (BigEndian.toBytes 2 code.asU16.toNat ++ Utf8.encode reason)

/-- The result of a write when the writer task is gone; `close` does not look. -/
def refusal : WriteCall → Except RiftError Unit
  | .writeFrame _ => .error (.other "bridge write channel closed")
  | .close .. => .ok ()

def start : Bridge n := ⟨[], false, [], .pulling, .empty, .empty, [], [], []⟩

inductive Act
  /-- Something comes from the peer. -/
  | arrive (item : Except String WsPart)
  /-- Nothing more will come from the peer. -/
  | hangUp
  /-- The reader task takes the next item of the stream. -/
  | pull
  /-- The reader task sends to the inbox. -/
  | push
  | read
  | write (call : WriteCall)
  /-- The writer task takes from the outbox. -/
  | forward
  /-- The writer task ends, with the connection gone and the outbox empty. -/
  | finish
  /-- The connection is dropped. -/
  | drop
  deriving DecidableEq, Repr

/-- The actions of the reader task. -/
def Act.isReader : Act → Bool
  | pull | push => true
  | arrive _ | hangUp | read | write _ | forward | finish | drop => false

/-- The reader task, with its next item, for which it waits. It stops at the end of the stream and
at an error. -/
def pull (b : Bridge n) : Option (Bridge n) :=
  match b.stream with
  | [] => if b.hungUp then some { b with reader := .ended } else none
  | .error _ :: rest => some { b with stream := rest, reader := .ended }
  | .ok part :: rest =>
    match tag part with
    | some raw => some { b with stream := rest, reader := .pushing raw }
    | none => some { b with stream := rest }

/-- The writer task, with bytes it has taken. A close ends it. -/
def forward (adapter : Adapter) (b : Bridge n) (raw : Bytes) (outbox : Bounded Bytes n) :
    Bridge n :=
  if raw.head? = some 67 then
    { b with outbox := outbox.dropReceiver, wire := b.wire ++ adapter.hands (.close none) }
  else if 1 < raw.length then
    { b with outbox, wire := b.wire ++ adapter.hands (.binary raw.tail) }
  else { b with outbox }

/-- A step of one of the three parties. A send waits while its channel is full, and a receive
while it is empty. -/
def step (J : SerdeJson) (adapter : Adapter) (b : Bridge n) : Act → Option (Bridge n)
  | .arrive item =>
    if b.hungUp then none
    else some { b with arrived := b.arrived ++ [item], stream := b.stream ++ [item] }
  | .hangUp => some { b with hungUp := true }
  | .pull => if b.reader = .pulling then b.pull else none
  | .push =>
    match b.reader with
    | .pushing raw =>
      match b.inbox.trySend raw with
      | .ok inbox => some { b with inbox, reader := .pulling }
      | .error .closed => some { b with reader := .ended }
      | .error .full => none
    | .pulling | .ended => none
  | .read =>
    if b.inbox.receiver then
      match b.inbox.recv with
      | some (raw, inbox) => some { b with inbox, results := b.results ++ [readRaw J raw] }
      | none =>
        if b.reader = .ended then
          some { b with results := b.results ++ [.error (.session .closed)] }
        else none
    else none
  | .write call =>
    if b.inbox.receiver then
      match b.outbox.trySend (rawOf call) with
      | .ok outbox => some { b with outbox, written := b.written ++ [(call, .ok ())] }
      | .error .closed => some { b with written := b.written ++ [(call, refusal call)] }
      | .error .full => none
    else none
  | .forward =>
    if b.outbox.receiver then
      match b.outbox.recv with
      | some (raw, outbox) => some (b.forward adapter raw outbox)
      | none => none
    else none
  | .finish =>
    if b.outbox.receiver ∧ b.inbox.receiver = false ∧ b.outbox.queue = [] then
      some { b with outbox := b.outbox.dropReceiver }
    else none
  | .drop => if b.inbox.receiver then some { b with inbox := b.inbox.dropReceiver } else none

/-- The stream up to its first error. -/
def sound (stream : WsStream) : WsStream := stream.takeWhile Except.isOk

/-- What the reader task sends of what comes from the peer. -/
def tagged : WsParts → List Bytes
  | [] => []
  | .error _ :: _ => []
  | .ok part :: rest => (tag part).toList ++ tagged rest

/-- What a read returns that has as many reads before it. -/
def outcome (J : SerdeJson) (raws : List Bytes) (k : Nat) : Except RiftError Frame :=
  (raws[k]?.map (readRaw J)).getD (.error (.session .closed))

/-- The stream has come to its end, or to an error. -/
def Ended (b : Bridge n) : Prop := b.hungUp = true ∨ ∃ e, .error e ∈ b.arrived

variable {J : SerdeJson} {adapter : Adapter} {b b' : Bridge n} {front rest : WsParts}
  {part : WsPart} {a : Act} {acts : List Act}

theorem tagged_append_of_ok (h : ∀ item ∈ front, item.isOk = true) :
    tagged (front ++ rest) = tagged front ++ tagged rest := by
  induction front with
  | nil => rfl
  | cons item front ih =>
    obtain ⟨hitem, hfront⟩ := List.forall_mem_cons.mp h
    cases item with
    | error e => cases hitem
    | ok part => simp only [List.cons_append, tagged, ih hfront, List.append_assoc]

theorem tagged_append_of_error (h : ∃ e, .error e ∈ front) :
    tagged (front ++ rest) = tagged front := by
  obtain ⟨e, he⟩ := h
  induction front with
  | nil => cases he
  | cons item front ih =>
    cases item with
    | error e => rfl
    | ok part =>
      have hfront := (List.mem_cons.mp he).resolve_left nofun
      simp only [List.cons_append, tagged, ih hfront]

theorem tagged_isPrefix (front rest : WsParts) : tagged front <+: tagged (front ++ rest) := by
  by_cases h : ∃ e, .error e ∈ front
  · rw [tagged_append_of_error h]
  · have hok : ∀ item ∈ front, item.isOk = true := by
      intro item hitem
      cases item with
      | error e => exact absurd ⟨e, hitem⟩ h
      | ok part => rfl
    rw [tagged_append_of_ok hok]
    exact List.prefix_append _ _

/-- The reads so far do not depend on what is still to come: they have returned messages that have
arrived, or there is nothing to come. -/
theorem outcomes_append {k : Nat}
    (h : k ≤ (tagged front).length ∨ (∃ e, .error e ∈ front) ∨ rest = []) :
    (List.range k).map (outcome J (tagged (front ++ rest))) =
      (List.range k).map (outcome J (tagged front)) := by
  rcases h with hle | herror | rfl
  · obtain ⟨more, hmore⟩ := tagged_isPrefix front rest
    refine List.map_congr_left fun i hi => ?_
    have hlt : i < (tagged front).length := (List.mem_range.mp hi).trans_le hle
    rw [outcome, outcome, ← hmore, List.getElem?_append_left hlt]
  · rw [tagged_append_of_error herror]
  · rw [List.append_nil]

/-- Everything a step can do. -/
inductive Moves (J : SerdeJson) (adapter : Adapter) (b : Bridge n) : Act → Bridge n → Prop
  | arrive (item) (hmore : b.hungUp = false) :
      Moves J adapter b (.arrive item)
        { b with arrived := b.arrived ++ [item], stream := b.stream ++ [item] }
  | hangUp : Moves J adapter b .hangUp { b with hungUp := true }
  | stop (hpulling : b.reader = .pulling) (hstream : b.stream = []) (hend : b.hungUp = true) :
      Moves J adapter b .pull { b with reader := .ended }
  | fail (e : String) (rest : WsParts) (hpulling : b.reader = .pulling)
      (hstream : b.stream = .error e :: rest) :
      Moves J adapter b .pull { b with stream := rest, reader := .ended }
  | take (part : WsPart) (raw : Bytes) (rest : WsParts) (hpulling : b.reader = .pulling)
      (hstream : b.stream = .ok part :: rest) (htag : tag part = some raw) :
      Moves J adapter b .pull { b with stream := rest, reader := .pushing raw }
  | skip (part : WsPart) (rest : WsParts) (hpulling : b.reader = .pulling)
      (hstream : b.stream = .ok part :: rest) (htag : tag part = none) :
      Moves J adapter b .pull { b with stream := rest }
  | push (raw inbox) (hpushing : b.reader = .pushing raw)
      (hsend : b.inbox.trySend raw = .ok inbox) :
      Moves J adapter b .push { b with inbox, reader := .pulling }
  | abandon (hclosed : b.inbox.receiver = false) :
      Moves J adapter b .push { b with reader := .ended }
  | read (raw inbox) (hopen : b.inbox.receiver = true) (hrecv : b.inbox.recv = some (raw, inbox)) :
      Moves J adapter b .read { b with inbox, results := b.results ++ [readRaw J raw] }
  | readClosed (hopen : b.inbox.receiver = true) (hqueue : b.inbox.queue = [])
      (hended : b.reader = .ended) :
      Moves J adapter b .read { b with results := b.results ++ [.error (.session .closed)] }
  | accept (call outbox) (hsend : b.outbox.trySend (rawOf call) = .ok outbox) :
      Moves J adapter b (.write call) { b with outbox, written := b.written ++ [(call, .ok ())] }
  | refuse (call) (hopen : b.inbox.receiver = true) (hclosed : b.outbox.receiver = false) :
      Moves J adapter b (.write call) { b with written := b.written ++ [(call, refusal call)] }
  | forward (raw outbox) (hrunning : b.outbox.receiver = true)
      (hrecv : b.outbox.recv = some (raw, outbox)) :
      Moves J adapter b .forward (b.forward adapter raw outbox)
  | finish (hrunning : b.outbox.receiver = true) (hopen : b.inbox.receiver = false)
      (hqueue : b.outbox.queue = []) :
      Moves J adapter b .finish { b with outbox := b.outbox.dropReceiver }
  | drop : Moves J adapter b .drop { b with inbox := b.inbox.dropReceiver }

theorem moves_of_step (h : step J adapter b a = some b') : Moves J adapter b a b' := by
  cases a with
  | arrive item =>
    simp only [step] at h
    split at h
    · cases h
    · next hmore =>
      cases h
      exact .arrive item (Bool.eq_false_iff.mpr hmore)
  | hangUp =>
    cases h
    exact .hangUp
  | pull =>
    simp only [step] at h
    split at h
    · next hpulling =>
      unfold pull at h
      split at h
      · next hstream =>
        split at h
        · next hend =>
          cases h
          exact .stop hpulling hstream hend
        · cases h
      · next e rest hstream =>
        cases h
        exact .fail e rest hpulling hstream
      · next part rest hstream =>
        split at h
        · next raw htag =>
          cases h
          exact .take part raw rest hpulling hstream htag
        · next htag =>
          cases h
          exact .skip part rest hpulling hstream htag
    · cases h
  | push =>
    simp only [step] at h
    split at h
    · next raw hpushing =>
      split at h
      · next inbox hsend =>
        cases h
        exact .push raw inbox hpushing hsend
      · next hsend =>
        cases h
        exact .abandon (Bounded.receiver_of_closed hsend)
      · cases h
    · cases h
    · cases h
  | read =>
    simp only [step] at h
    split at h
    · next hopen =>
      split at h
      · next raw inbox hrecv =>
        cases h
        exact .read raw inbox hopen hrecv
      · next hrecv =>
        split at h
        · next hended =>
          cases h
          exact .readClosed hopen (Bounded.queue_of_recv_none hrecv) hended
        · cases h
    · cases h
  | write call =>
    simp only [step] at h
    split at h
    · next hopen =>
      split at h
      · next outbox hsend =>
        cases h
        exact .accept call outbox hsend
      · next hsend =>
        cases h
        exact .refuse call hopen (Bounded.receiver_of_closed hsend)
      · cases h
    · cases h
  | forward =>
    simp only [step] at h
    split at h
    · next hrunning =>
      split at h
      · next raw outbox hrecv =>
        cases h
        exact .forward raw outbox hrunning hrecv
      · cases h
    · cases h
  | finish =>
    simp only [step] at h
    split at h
    · next hdone =>
      cases h
      exact .finish hdone.1 hdone.2.1 hdone.2.2
    · cases h
  | drop =>
    simp only [step] at h
    split at h
    · cases h
      exact .drop
    · cases h

/-- A WebSocket connection takes every message that is in one frame. -/
def Taken (c : WebSocketConfig) (parts : WsParts) : Prop :=
  ∀ m, .ok (.message m) ∈ parts →
    WebSocketConfig.Fits c.maxFrameSize m.size ∧ WebSocketConfig.Fits c.maxMessageSize m.size

/-- What a WebSocket connection reads from: the messages that come in one frame, up to the first
error. -/
def plain (c : WebSocketConfig) (parts : WsParts) : WsStream :=
  sound (c.receive none parts.unfragmented)

variable {c : WebSocketConfig}

/-- One message of a WebSocket connection. -/
theorem plain_message {m : WsMessage} (ht : Taken c (.ok (.message m) :: rest))
    (hend : WsParts.endsAtClose (.ok (.message m) :: rest) = true) :
    plain c (.ok (.message m) :: rest) = .ok m :: plain c rest := by
  obtain ⟨hframe, hmessage⟩ := ht m List.mem_cons_self
  have hfirst : WsParts.unfragmented (.ok (.message m) :: rest) =
    .ok (.message m) :: rest.unfragmented := rfl
  rw [plain, hfirst, WebSocketConfig.receive_message hframe hmessage]
  cases m with
  | close frame =>
    obtain rfl : rest = [] := List.isEmpty_iff.mp hend
    rfl
  | text | binary | ping | pong | other => rfl

/-- A read on the stream itself: the first message that counts, as it comes out of the bridge. -/
theorem readFrame_plain (J : SerdeJson) {parts : WsParts} (ht : Taken c parts)
    (hend : parts.endsAtClose = true) :
    (WebSocketConnection.readFrame J (plain c parts)).1 = outcome J (tagged parts) 0 ∧
      ∃ rest, (WebSocketConnection.readFrame J (plain c parts)).2 = plain c rest ∧
        tagged rest = (tagged parts).tail ∧ Taken c rest ∧ rest.endsAtClose = true := by
  induction parts with
  | nil => exact ⟨rfl, [], rfl, rfl, ht, rfl⟩
  | cons item rest ih =>
    have hrest : Taken c rest := fun m hm => ht m (List.mem_cons_of_mem _ hm)
    cases item with
    | error e => exact ⟨rfl, [], rfl, rfl, (fun m hm => by cases hm), rfl⟩
    | ok part =>
      cases part with
      | message m =>
        rw [plain_message ht hend]
        cases m with
        | close frame =>
          obtain rfl : rest = [] := List.isEmpty_iff.mp hend
          exact ⟨rfl, [], rfl, rfl, hrest, rfl⟩
        | text data | binary data => exact ⟨rfl, rest, rfl, rfl, hrest, hend⟩
        | ping | pong | other => exact ih hrest hend
      | first | next | last => exact ih hrest hend

/-- The reads of a WebSocket connection. -/
theorem reads_plain (J : SerdeJson) {parts : WsParts} (ht : Taken c parts)
    (hend : parts.endsAtClose = true) (k : Nat) :
    WebSocketConnection.reads J (plain c parts) k =
      (List.range k).map (outcome J (tagged parts)) := by
  induction k generalizing parts with
  | zero => rfl
  | succ k ih =>
    obtain ⟨hfirst, rest, hrest, htail, ht', hend'⟩ := readFrame_plain J ht hend
    have hshift : (outcome J (tagged parts)) ∘ Nat.succ = outcome J (tagged rest) := by
      funext i
      simp [outcome, htail]
    rw [WebSocketConnection.reads, hrest, ih ht' hend', hfirst, List.range_succ_eq_map,
      List.map_cons, List.map_map, hshift]

/-- What the reads have returned, and, while the connection lives, where the rest is of what has
arrived. -/
structure Inbound (J : SerdeJson) (b : Bridge n) : Prop where
  results : b.results = (List.range b.results.length).map (outcome J (tagged b.arrived))
  settled : b.results.length ≤ (tagged b.arrived).length ∨ b.Ended
  ahead : b.inbox.receiver = true → b.reader ≠ .ended → ∃ pulled,
    b.arrived = pulled ++ b.stream ∧ (∀ item ∈ pulled, item.isOk = true) ∧
    b.results.length ≤ (tagged pulled).length ∧
    (tagged pulled).drop b.results.length = b.inbox.queue ++ b.reader.held
  finished : b.inbox.receiver = true → b.reader = .ended →
    b.Ended ∧ (tagged b.arrived).drop b.results.length = b.inbox.queue

theorem inbound_start (J : SerdeJson) : Inbound J (start : Bridge n) :=
  ⟨rfl, .inl le_rfl, fun _ _ => ⟨[], rfl, by simp, le_rfl, rfl⟩, fun _ h => by cases h⟩

/-- The reader task takes a frame. -/
theorem Inbound.pulled (h : Inbound J b) {reader : BridgeReader}
    (hpulling : b.reader = .pulling) (hstream : b.stream = .ok part :: rest)
    (hreader : reader ≠ .ended) (hheld : reader.held = (tag part).toList) :
    Inbound J { b with stream := rest, reader } := by
  refine ⟨h.results, h.settled, fun hopen _ => ?_, fun _ he => absurd he hreader⟩
  obtain ⟨pulled, harrived, hok, hle, hdrop⟩ := h.ahead hopen (by simp [hpulling])
  have hone : tagged [.ok part] = (tag part).toList := List.append_nil _
  refine ⟨pulled ++ [.ok part], ?_, ?_, ?_, ?_⟩
  · rw [harrived, hstream, List.append_assoc]
    rfl
  · exact List.forall_mem_append.mpr ⟨hok, by simp [Except.isOk, Except.toBool]⟩
  · rw [tagged_append_of_ok hok, List.length_append]
    exact hle.trans (Nat.le_add_right _ _)
  · rw [tagged_append_of_ok hok, List.drop_append_of_le_length hle, hdrop, hone, hpulling, hheld]
    simp [BridgeReader.held]

/-- What is in the inbox comes first of what is still to be read. -/
theorem Inbound.isPrefix (h : Inbound J b) (hopen : b.inbox.receiver = true) :
    b.inbox.queue <+: (tagged b.arrived).drop b.results.length := by
  by_cases hended : b.reader = .ended
  · rw [(h.finished hopen hended).2]
  · obtain ⟨pulled, harrived, hok, hle, hdrop⟩ := h.ahead hopen hended
    rw [harrived, tagged_append_of_ok hok, List.drop_append_of_le_length hle, hdrop,
      List.append_assoc]
    exact List.prefix_append _ _

theorem Inbound.arrive (h : Inbound J b) (hmore : b.hungUp = false) (item : Except String WsPart) :
    Inbound J { b with arrived := b.arrived ++ [item], stream := b.stream ++ [item] } := by
  have hended : b.Ended → ∃ e, .error e ∈ b.arrived :=
    fun hend => hend.resolve_left (by simp [hmore])
  refine ⟨?_, ?_, fun hopen hreader => ?_, fun hopen hreader => ?_⟩
  · change b.results = _
    rw [outcomes_append (h.settled.imp_right fun hend => .inl (hended hend)), ← h.results]
  · refine h.settled.imp (fun hle => hle.trans (tagged_isPrefix _ _).length_le) fun hend => ?_
    obtain ⟨e, he⟩ := hended hend
    exact .inr ⟨e, List.mem_append_left _ he⟩
  · obtain ⟨pulled, harrived, hok, hle, hdrop⟩ := h.ahead hopen hreader
    refine ⟨pulled, ?_, hok, hle, hdrop⟩
    rw [harrived, List.append_assoc]
  · obtain ⟨hend, hdrop⟩ := h.finished hopen hreader
    obtain ⟨e, he⟩ := hended hend
    refine ⟨.inr ⟨e, List.mem_append_left _ he⟩, ?_⟩
    change (tagged (b.arrived ++ [item])).drop b.results.length = _
    rw [tagged_append_of_error ⟨e, he⟩, hdrop]

theorem Inbound.results_concat (h : Inbound J b) {r : Except RiftError Frame}
    (hr : outcome J (tagged b.arrived) b.results.length = r) :
    b.results ++ [r] =
      (List.range (b.results ++ [r]).length).map (outcome J (tagged b.arrived)) := by
  rw [List.length_append, List.length_singleton, List.range_succ, List.map_append, ← h.results,
    List.map_singleton, hr]

/-- A read that returns what is next. -/
theorem Inbound.read (h : Inbound J b) {raw : Bytes} {inbox : Bounded Bytes n}
    (hopen : b.inbox.receiver = true) (hrecv : b.inbox.recv = some (raw, inbox)) :
    Inbound J { b with inbox, results := b.results ++ [readRaw J raw] } := by
  have hqueue := Bounded.queue_of_recv hrecv
  obtain ⟨more, hmore⟩ := h.isPrefix hopen
  rw [hqueue, List.cons_append] at hmore
  have hnext : (tagged b.arrived)[b.results.length]? = some raw := by
    rw [← List.head?_drop, ← hmore, List.head?_cons]
  obtain ⟨hlt, -⟩ := List.getElem?_eq_some_iff.mp hnext
  have hlength : (b.results ++ [readRaw J raw]).length = b.results.length + 1 := by simp
  refine ⟨h.results_concat ?_, .inl (hlength ▸ hlt), fun _ hreader => ?_, fun _ hreader => ?_⟩
  · rw [outcome, hnext]
    rfl
  · obtain ⟨pulled, harrived, hok, hle, hdrop⟩ := h.ahead hopen hreader
    have hlt : b.results.length < (tagged pulled).length := by
      rw [← Nat.not_le, ← List.drop_eq_nil_iff, hdrop, hqueue]
      exact List.cons_ne_nil _ _
    refine ⟨pulled, harrived, hok, hlength ▸ hlt, ?_⟩
    change (tagged pulled).drop (b.results ++ [readRaw J raw]).length = _
    rw [hlength, ← List.tail_drop, hdrop, hqueue]
    rfl
  · obtain ⟨hend, hdrop⟩ := h.finished hopen hreader
    refine ⟨hend, ?_⟩
    change (tagged b.arrived).drop (b.results ++ [readRaw J raw]).length = _
    rw [hlength, ← List.tail_drop, hdrop, hqueue]
    rfl

theorem inbound_step (hs : step J adapter b a = some b') (h : Inbound J b) : Inbound J b' := by
  cases moves_of_step hs with
  | arrive item hmore => exact h.arrive hmore item
  | hangUp =>
    exact ⟨h.results, h.settled.imp_right fun _ => .inl rfl, h.ahead,
      fun hopen hreader => ⟨.inl rfl, (h.finished hopen hreader).2⟩⟩
  | stop hpulling hstream hend =>
    refine ⟨h.results, h.settled, fun _ he => absurd rfl he, fun hopen _ => ⟨.inl hend, ?_⟩⟩
    obtain ⟨pulled, harrived, -, -, hdrop⟩ := h.ahead hopen (by simp [hpulling])
    rw [hstream, List.append_nil] at harrived
    rw [hpulling] at hdrop
    exact (harrived ▸ hdrop).trans (List.append_nil _)
  | fail e rest hpulling hstream =>
    refine ⟨h.results, h.settled, fun _ he => absurd rfl he, fun hopen _ => ?_⟩
    obtain ⟨pulled, harrived, hok, -, hdrop⟩ := h.ahead hopen (by simp [hpulling])
    rw [hstream] at harrived
    rw [hpulling] at hdrop
    refine ⟨.inr ⟨e, ?_⟩, ?_⟩
    · change _ ∈ b.arrived
      rw [harrived]
      exact List.mem_append_right _ List.mem_cons_self
    · change (tagged b.arrived).drop b.results.length = _
      rw [harrived, tagged_append_of_ok hok]
      exact (congrArg (List.drop _) (List.append_nil _)).trans (hdrop.trans (List.append_nil _))
  | take part raw rest hpulling hstream htag =>
    exact h.pulled hpulling hstream (by simp) (by simp [htag, BridgeReader.held])
  | skip part rest hpulling hstream htag =>
    have hsame : { b with stream := rest } = { b with stream := rest, reader := b.reader } := rfl
    rw [hsame]
    exact h.pulled hpulling hstream (by simp [hpulling]) (by simp [hpulling, htag,
      BridgeReader.held])
  | push raw inbox hpushing hsend =>
    refine ⟨h.results, h.settled, fun _ _ => ?_, fun _ he => by cases he⟩
    obtain ⟨pulled, harrived, hok, hle, hdrop⟩ :=
      h.ahead (Bounded.receiver_of_trySend hsend).1 (by simp [hpushing])
    refine ⟨pulled, harrived, hok, hle, ?_⟩
    change _ = inbox.queue ++ []
    rw [Bounded.queue_of_trySend hsend, List.append_nil, hdrop, hpushing]
    rfl
  | abandon hclosed =>
    exact ⟨h.results, h.settled, fun hopen => absurd hopen (by simp [hclosed]),
      fun hopen => absurd hopen (by simp [hclosed])⟩
  | read raw inbox hopen hrecv => exact h.read hopen hrecv
  | readClosed hopen hqueue hended =>
    obtain ⟨hend, hdrop⟩ := h.finished hopen hended
    rw [hqueue, List.drop_eq_nil_iff] at hdrop
    refine ⟨h.results_concat ?_, .inr hend, fun _ he => absurd hended he, fun _ _ => ⟨hend, ?_⟩⟩
    · rw [outcome, List.getElem?_eq_none hdrop]
      rfl
    · dsimp only
      rw [hqueue, List.length_append]
      exact List.drop_eq_nil_iff.mpr (hdrop.trans (Nat.le_add_right _ _))
  | drop =>
    exact ⟨h.results, h.settled, (fun hopen => by cases hopen), (fun hopen => by cases hopen)⟩
  | accept | refuse | finish => exact ⟨h.results, h.settled, h.ahead, h.finished⟩
  | forward raw outbox =>
    unfold forward
    split
    · exact ⟨h.results, h.settled, h.ahead, h.finished⟩
    · split <;> exact ⟨h.results, h.settled, h.ahead, h.finished⟩

/-- A read returns at once when there is something to read, or nothing more to come. -/
theorem exists_read_of_ready (J : SerdeJson) (adapter : Adapter) (hopen : b.inbox.receiver = true)
    (h : b.inbox.queue ≠ [] ∨ b.reader = .ended) : ∃ t, step J adapter b .read = some t := by
  simp only [step, if_pos hopen]
  cases hrecv : b.inbox.recv with
  | some x => exact ⟨_, rfl⟩
  | none =>
    have hended : b.reader = .ended := h.resolve_left (absurd (Bounded.queue_of_recv_none hrecv))
    exact ⟨_, if_pos hended⟩

/-- The reader task alone gets a read to return. -/
def Readable (J : SerdeJson) (adapter : Adapter) (b : Bridge n) : Prop :=
  Leads (step J adapter) Act.isReader b fun t => ∃ u, step J adapter t .read = some u

theorem readable_of_ready (hopen : b.inbox.receiver = true)
    (h : b.inbox.queue ≠ [] ∨ b.reader = .ended) : Readable J adapter b :=
  leads_self (exists_read_of_ready J adapter hopen h)

theorem readable_of_step (ha : a.isReader = true) (hs : step J adapter b a = some b')
    (h : Readable J adapter b') : Readable J adapter b := by
  obtain ⟨acts, t, hacts, ht, hread⟩ := h
  exact ⟨a :: acts, t, List.forall_mem_cons.mpr ⟨ha, hacts⟩, run_cons_iff.mpr ⟨b', hs, ht⟩, hread⟩

theorem readable_of_pushing {raw : Bytes} (hn : 0 < n) (hopen : b.inbox.receiver = true)
    (hqueue : b.inbox.queue = []) (hpushing : b.reader = .pushing raw) : Readable J adapter b := by
  obtain ⟨inbox, hsend⟩ := Bounded.exists_trySend raw hopen (by simpa [hqueue] using hn)
  have hpush : step J adapter b .push = some { b with inbox, reader := .pulling } := by
    simp [step, hpushing, hsend]
  refine readable_of_step rfl hpush
    (readable_of_ready (Bounded.receiver_of_trySend hsend).2 (.inl ?_))
  change inbox.queue ≠ []
  rw [Bounded.queue_of_trySend hsend]
  exact List.append_ne_nil_of_right_ne_nil _ (List.cons_ne_nil _ _)

/-- The reader task works off what has arrived until it has something to send, or comes to the
end. -/
theorem readable_of_pulling (hn : 0 < n) (h : Inbound J b) (hopen : b.inbox.receiver = true)
    (hqueue : b.inbox.queue = []) (hpulling : b.reader = .pulling)
    (hmore : b.results.length < (tagged b.arrived).length ∨ b.Ended) : Readable J adapter b := by
  have hstep : step J adapter b .pull = b.pull := if_pos hpulling
  generalize hstream : b.stream = stream
  induction stream generalizing b with
  | nil =>
    obtain ⟨pulled, harrived, hok, -, hdrop⟩ := h.ahead hopen (by simp [hpulling])
    rw [hstream, List.append_nil] at harrived
    rw [hqueue, hpulling, BridgeReader.held, List.append_nil, List.drop_eq_nil_iff] at hdrop
    have hend : b.hungUp = true := by
      rcases hmore with hlt | hend | ⟨e, he⟩
      · rw [harrived] at hlt
        exact absurd hdrop (Nat.not_le.mpr hlt)
      · exact hend
      · cases hok _ (harrived ▸ he)
    rw [pull, hstream] at hstep
    exact readable_of_step rfl (hstep.trans (if_pos hend)) (readable_of_ready hopen (.inr rfl))
  | cons item rest ih =>
    cases item with
    | error e =>
      rw [pull, hstream] at hstep
      exact readable_of_step rfl hstep (readable_of_ready hopen (.inr rfl))
    | ok part =>
      cases htag : tag part with
      | some raw =>
        have hpull : b.pull = some { b with stream := rest, reader := .pushing raw } := by
          simp only [pull, hstream, htag]
        exact readable_of_step rfl (hstep.trans hpull) (readable_of_pushing hn hopen hqueue rfl)
      | none =>
        have hpull : b.pull = some { b with stream := rest } := by
          simp only [pull, hstream, htag]
        have hs := hstep.trans hpull
        exact readable_of_step rfl hs
          (ih (inbound_step hs h) hopen hqueue hpulling hmore (if_pos hpulling) rfl)

theorem readable_of_more (hn : 0 < n) (h : Inbound J b) (hopen : b.inbox.receiver = true)
    (hmore : b.results.length < (tagged b.arrived).length ∨ b.Ended) : Readable J adapter b := by
  by_cases hqueue : b.inbox.queue = []
  · cases hreader : b.reader with
    | ended => exact readable_of_ready hopen (.inr hreader)
    | pushing raw => exact readable_of_pushing hn hopen hqueue hreader
    | pulling => exact readable_of_pulling hn h hopen hqueue hreader hmore
  · exact readable_of_ready hopen (.inl hqueue)

/-- What the reader task leaves as it is. -/
theorem kept_of_isReader (hs : step J adapter b a = some b') (ha : a.isReader = true) :
    b'.arrived = b.arrived ∧ b'.hungUp = b.hungUp ∧ b'.results = b.results := by
  cases moves_of_step hs with
  | stop | fail | take | skip | push | abandon => exact ⟨rfl, rfl, rfl⟩
  | arrive | hangUp | read | readClosed | accept | refuse | forward | finish | drop => cases ha

/-- A read that returns, returns something that has arrived, or the end. -/
theorem more_of_read (h : Inbound J b) (hs : step J adapter b .read = some b') :
    b.results.length < (tagged b.arrived).length ∨ b.Ended := by
  cases moves_of_step hs with
  | read raw inbox hopen hrecv =>
    have hlen := (h.isPrefix hopen).length_le
    rw [Bounded.queue_of_recv hrecv, List.length_cons, List.length_drop] at hlen
    exact .inl (by omega)
  | readClosed hopen hqueue hended => exact .inr (h.finished hopen hended).1

theorem readable_iff (hn : 0 < n) (h : Inbound J b) (hopen : b.inbox.receiver = true) :
    Readable J adapter b ↔ b.results.length < (tagged b.arrived).length ∨ b.Ended := by
  refine ⟨?_, readable_of_more hn h hopen⟩
  rintro ⟨acts, t, hacts, hrun, u, hread⟩
  have hkept : (t.arrived = b.arrived ∧ t.hungUp = b.hungUp ∧ t.results = b.results) ∧
      Inbound J t := by
    refine run_invariant_of_guarded (P := fun s => (s.arrived = b.arrived ∧ s.hungUp = b.hungUp ∧
      s.results = b.results) ∧ Inbound J s) ?_ (guarded_of_forall_mem hacts) hrun
      ⟨⟨rfl, rfl, rfl⟩, h⟩
    rintro s a s' hs ha ⟨⟨harrived, hhung, hresults⟩, hinbound⟩
    obtain ⟨harrived', hhung', hresults'⟩ := kept_of_isReader hs ha
    exact ⟨⟨harrived'.trans harrived, hhung'.trans hhung, hresults'.trans hresults⟩,
      inbound_step hs hinbound⟩
  obtain ⟨⟨harrived, hhung, hresults⟩, hinbound⟩ := hkept
  have hmore := more_of_read hinbound hread
  rwa [Ended, harrived, hhung, hresults] at hmore

/-- Whatever the interleaving of the peer, the reader task and the connection, the reads of a
bridged connection have returned what those of a WebSocket connection return on the frames that
have arrived, and whatever comes after them, without the messages in several frames and up to
the first error. While the connection lives, the reader task alone gets the next read to return
exactly when there is something left to read of what has arrived, or the stream has come to its
end; otherwise the read waits for the peer. -/
theorem bridge_reads_as_websocket (J : SerdeJson) (adapter : Adapter) (hn : 0 < n)
    (acts : List Act) (b : Bridge n) (hrun : run (step J adapter) start acts = some b) :
    (∀ (c : WebSocketConfig) (future : WsParts), (b.hungUp = true → future = []) →
      WsParts.endsAtClose (b.arrived ++ future) = true → Taken c (b.arrived ++ future) →
      b.results = WebSocketConnection.reads J
        (sound (c.receive none (WsParts.unfragmented (b.arrived ++ future)))) b.results.length) ∧
    (b.inbox.receiver = true →
      ((Leads (step J adapter) Act.isReader b fun t => ∃ u, step J adapter t .read = some u) ↔
        b.results.length < (tagged b.arrived).length ∨ b.hungUp = true ∨
          ∃ e, .error e ∈ b.arrived)) := by
  have hinbound : Inbound J b :=
    run_invariant (P := Inbound J) (fun _ _ _ => inbound_step) hrun (inbound_start J)
  refine ⟨?_, readable_iff hn hinbound⟩
  intro c future hfuture hend htaken
  have hsettled : b.results.length ≤ (tagged b.arrived).length ∨ (∃ e, .error e ∈ b.arrived) ∨
      future = [] :=
    hinbound.settled.imp_right fun hended => hended.elim (fun hup => .inr (hfuture hup)) .inl
  change b.results = WebSocketConnection.reads J (plain c (b.arrived ++ future)) b.results.length
  rw [reads_plain J htaken hend, outcomes_append hsettled, ← hinbound.results]

/-- A ping, a message that is too short for a frame, a part of another, an error, and a message
after it; and two reads. -/
def brokenStream : List Act :=
  [.arrive (.ok (.message (.ping []))), .arrive (.ok (.message (.binary [1, 2, 3]))),
    .arrive (.ok (.first true [])), .pull, .pull, .push, .pull, .read, .arrive (.error "reset"),
    .arrive (.ok (.message (.text []))), .pull, .read]

/-- The second read returns only with the error, and does not tell what it was. -/
theorem broken_stream_is_closed :
    ∃ b, run (step (.reading []) .ntex) (start : Bridge 1) brokenStream = some b ∧
      b.results = [.error (.frame (.frameInvalid "binary frame too short: 3")),
        .error (.session .closed)] := by
  refine ⟨_, rfl, ?_⟩
  have htaken : Taken {} [.ok (.message (.ping [])), .ok (.message (.binary [1, 2, 3])),
      .ok (.first true []), .error "reset", .ok (.message (.text []))] := by
    intro m hm
    have hsize : m.size ≤ 3 := by
      simp at hm
      rcases hm with rfl | rfl | rfl <;> decide
    constructor
    · rintro max ⟨⟩
      omega
    · rintro max ⟨⟩
      omega
  exact ((bridge_reads_as_websocket (.reading []) .ntex (n := 1) Nat.one_pos brokenStream _
    rfl).1 {} [] (fun _ => rfl) rfl htaken).trans rfl

/-- The calls that returned without an error, in order. -/
def accepted (b : Bridge n) : List WriteCall :=
  (b.written.filter fun x => x.2.isOk).map Prod.fst

/-- What the writer task makes of calls: the messages of a WebSocket connection, except for
the code and the reason of a close. -/
def handed (adapter : Adapter) (calls : List WriteCall) : List WsMessage :=
  calls.flatMap fun call => adapter.hands (WebSocketConnection.sent call).uncoded

variable {call : WriteCall} {calls : List WriteCall} {outbox : Bounded Bytes n}

theorem accepted_concat {result : Except RiftError Unit} :
    accepted { b with outbox, written := b.written ++ [(call, result)] } =
      accepted b ++ if result.isOk then [call] else [] := by
  cases result <;> simp [accepted, Except.isOk, Except.toBool]

/-- The writer task takes the bytes of a call apart as they were put together. -/
theorem forward_rawOf : b.forward adapter (rawOf call) outbox =
    { b with
      outbox := if call.isClose then outbox.dropReceiver else outbox
      wire := b.wire ++ adapter.hands (WebSocketConnection.sent call).uncoded } := by
  cases call with
  | close code reason => simp [forward, rawOf, WriteCall.isClose, WebSocketConnection.sent,
      WsMessage.uncoded]
  | writeFrame f =>
    have hframe : encodeFrame f ≠ [] := by
      rw [← List.length_pos_iff, length_encodeFrame]
      omega
    simp [forward, rawOf, WriteCall.isClose, WebSocketConnection.sent, WsMessage.uncoded, hframe]

/-- A write that fails comes after a close. -/
def FailsAfterClose (written : List (WriteCall × Except RiftError Unit)) : Prop :=
  ∀ pre call e post, written = pre ++ (call, .error e) :: post → ∃ x ∈ pre, x.1.isClose = true

theorem FailsAfterClose.concat {written : List (WriteCall × Except RiftError Unit)}
    {result : Except RiftError Unit} (h : FailsAfterClose written)
    (hlast : result.isOk = false → ∃ x ∈ written, x.1.isClose = true) :
    FailsAfterClose (written ++ [(call, result)]) := by
  intro pre call' e post heq
  rcases List.eq_nil_or_concat' post with rfl | ⟨post, y, rfl⟩
  · obtain ⟨rfl, hy⟩ := List.append_inj' heq rfl
    cases hy
    exact hlast rfl
  · rw [← List.cons_append, ← List.append_assoc] at heq
    exact h pre call' e post (List.append_inj' heq rfl).1

/-- Where the accepted calls are. While the writer task runs, it has forwarded some without a
close, and the others wait in the outbox. It ends with a close, or when the connection is gone
and all calls are forwarded. -/
structure Outbound (adapter : Adapter) (b : Bridge n) : Prop where
  running : b.outbox.receiver = true → ∃ done rest, b.accepted = done ++ rest ∧
    b.outbox.queue = rest.map rawOf ∧ (∀ call ∈ done, call.isClose = false) ∧
    b.wire = handed adapter done
  ended : b.outbox.receiver = false → b.outbox.queue = [] ∧
    b.wire = handed adapter (WriteCall.upToClose b.accepted) ∧
    (b.inbox.receiver = true → ∃ call ∈ b.accepted, call.isClose = true)
  fails : FailsAfterClose b.written

theorem outbound_start (adapter : Adapter) : Outbound adapter (start : Bridge n) := by
  refine ⟨fun _ => ⟨[], [], rfl, rfl, by simp, rfl⟩, ?_, ?_⟩
  · intro h
    cases h
  · intro pre call e post h
    cases pre <;> cases h

/-- A step that touches neither the writes nor the writer task. -/
theorem Outbound.quiet (h : Outbound adapter b) (houtbox : b'.outbox = b.outbox)
    (hwritten : b'.written = b.written) (hwire : b'.wire = b.wire)
    (hinbox : b'.inbox.receiver = true → b.inbox.receiver = true) : Outbound adapter b' := by
  have haccepted : b'.accepted = b.accepted := by rw [accepted, hwritten]; rfl
  refine ⟨?_, ?_, ?_⟩
  · rw [houtbox, haccepted, hwire]
    exact h.running
  · rw [houtbox, haccepted, hwire]
    exact fun hend => ⟨(h.ended hend).1, (h.ended hend).2.1, fun hopen =>
      (h.ended hend).2.2 (hinbox hopen)⟩
  · rw [hwritten]
    exact h.fails

theorem outbound_forward {raw : Bytes} (h : Outbound adapter b)
    (hrunning : b.outbox.receiver = true) (hrecv : b.outbox.recv = some (raw, outbox)) :
    Outbound adapter (b.forward adapter raw outbox) := by
  obtain ⟨done, rest, haccepted, hqueue, hdone, hwire⟩ := h.running hrunning
  rw [Bounded.queue_of_recv hrecv] at hqueue
  cases rest with
  | nil => cases hqueue
  | cons call rest =>
    rw [List.map_cons] at hqueue
    obtain ⟨rfl, hwaiting⟩ := List.cons.inj hqueue
    have hwire' : b.wire ++ adapter.hands (WebSocketConnection.sent call).uncoded =
        handed adapter (done ++ [call]) := by
      simp [hwire, handed]
    rw [forward_rawOf, hwire']
    cases hclose : call.isClose with
    | true =>
      have hup : WriteCall.upToClose b.accepted = done ++ [call] := by
        rw [haccepted, WriteCall.upToClose_append hdone, WriteCall.upToClose, if_pos hclose]
      refine ⟨(fun hrun => by cases hrun), fun _ => ⟨rfl, ?_, fun _ => ⟨call, ?_, hclose⟩⟩,
        h.fails⟩
      · exact congrArg (handed adapter) hup.symm
      · change call ∈ b.accepted
        rw [haccepted]
        exact List.mem_append_right _ List.mem_cons_self
    | false =>
      have hreceiver : outbox.receiver = true := (Bounded.receiver_of_recv hrecv).trans hrunning
      refine ⟨fun _ => ⟨done ++ [call], rest, ?_, hwaiting, ?_, rfl⟩, fun hend => ?_, h.fails⟩
      · exact haccepted.trans (List.append_cons done call rest)
      · exact List.forall_mem_append.mpr ⟨hdone, by simpa using hclose⟩
      · cases hreceiver.symm.trans hend

theorem outbound_step (hs : step J adapter b a = some b') (h : Outbound adapter b) :
    Outbound adapter b' := by
  cases moves_of_step hs with
  | arrive | hangUp | stop | fail | take | skip | abandon | readClosed =>
    exact h.quiet rfl rfl rfl fun hopen => hopen
  | push raw inbox hpushing hsend =>
    exact h.quiet rfl rfl rfl fun _ => (Bounded.receiver_of_trySend hsend).1
  | read raw inbox hopen hrecv => exact h.quiet rfl rfl rfl fun _ => hopen
  | drop => exact h.quiet rfl rfl rfl fun hopen => by cases hopen
  | forward raw outbox hrunning hrecv => exact outbound_forward h hrunning hrecv
  | accept call outbox hsend =>
    obtain ⟨hrunning, hreceiver⟩ := Bounded.receiver_of_trySend hsend
    obtain ⟨done, rest, haccepted, hqueue, hdone, hwire⟩ := h.running hrunning
    refine ⟨fun _ => ⟨done, rest ++ [call], ?_, ?_, hdone, hwire⟩, fun hend => ?_,
      h.fails.concat fun hfalse => by cases hfalse⟩
    · rw [accepted_concat, haccepted, List.append_assoc]
      rfl
    · rw [Bounded.queue_of_trySend hsend, hqueue, List.map_append]
      rfl
    · cases hreceiver.symm.trans hend
  | refuse call hopen hclosed =>
    obtain ⟨hqueue, hwire, hclose⟩ := h.ended hclosed
    have hsome := hclose hopen
    refine ⟨fun hrun => ?_, fun _ => ⟨hqueue, ?_, fun _ => ?_⟩, h.fails.concat fun _ => ?_⟩
    · cases hclosed.symm.trans hrun
    · rw [accepted_concat, WriteCall.upToClose_append_of_close hsome]
      exact hwire
    · obtain ⟨c, hc, hisClose⟩ := hsome
      rw [accepted_concat]
      exact ⟨c, List.mem_append_left _ hc, hisClose⟩
    · obtain ⟨c, hc, hisClose⟩ := hsome
      obtain ⟨x, hx, rfl⟩ := List.mem_map.mp hc
      exact ⟨x, List.mem_of_mem_filter hx, hisClose⟩
  | finish hrunning hopen hqueue =>
    obtain ⟨done, rest, haccepted, hrest, hdone, hwire⟩ := h.running hrunning
    obtain rfl : rest = [] := List.map_eq_nil_iff.mp (hrest.symm.trans hqueue)
    have hup : WriteCall.upToClose b.accepted = done := by
      rw [haccepted, WriteCall.upToClose_append hdone]
      exact List.append_nil done
    refine ⟨(fun hrun => by cases hrun), fun _ => ⟨rfl, ?_, fun hlive => ?_⟩, h.fails⟩
    · exact hwire.trans (congrArg (handed adapter) hup.symm)
    · cases hopen.symm.trans hlive

/-- Whatever the interleaving of the connection with the writer task, what is on the wire is a
front part of what a WebSocket connection sends for the writes that returned without an error,
up to the first close and without its code and reason; it is all of that when the outbox is
empty. A write that fails comes after a close. -/
theorem bridge_writes_as_websocket (J : SerdeJson) (adapter : Adapter) (acts : List Act)
    (b : Bridge n) (hrun : run (step J adapter) start acts = some b) :
    b.wire <+: handed adapter (WriteCall.upToClose b.accepted) ∧
      (b.outbox.queue = [] → b.wire = handed adapter (WriteCall.upToClose b.accepted)) ∧
      FailsAfterClose b.written := by
  have houtbound : Outbound adapter b := run_invariant (P := Outbound adapter)
    (fun _ _ _ => outbound_step) hrun (outbound_start adapter)
  cases hrunning : b.outbox.receiver with
  | true =>
    obtain ⟨done, rest, haccepted, hqueue, hdone, hwire⟩ := houtbound.running hrunning
    have hup : handed adapter (WriteCall.upToClose b.accepted) =
        b.wire ++ handed adapter (WriteCall.upToClose rest) := by
      rw [haccepted, WriteCall.upToClose_append hdone, hwire, handed, List.flatMap_append]
      rfl
    refine ⟨⟨_, hup.symm⟩, fun hempty => ?_, houtbound.fails⟩
    obtain rfl : rest = [] := List.map_eq_nil_iff.mp (hqueue.symm.trans hempty)
    rw [hup]
    exact (List.append_nil b.wire).symm
  | false =>
    obtain ⟨-, hwire, -⟩ := houtbound.ended hrunning
    rw [← hwire]
    exact ⟨List.prefix_refl _, fun _ => rfl, houtbound.fails⟩

/-- A frame, a close with its code, and two frames after it. -/
def writesPastClose : List Act :=
  [.write (.writeFrame {}), .write (.close .authFailed "expired"), .write (.writeFrame {}),
    .forward, .forward, .write (.writeFrame {})]

theorem writes_past_close_are_lost :
    ∃ b, run (step (.reading []) .ntex) (start : Bridge 256) writesPastClose = some b ∧
      b.written.map (fun x => x.2.isOk) = [true, true, true, false] ∧
      b.wire = [.binary (encodeFrame {}), .close none] := by
  refine ⟨_, rfl, rfl, ?_⟩
  exact (bridge_writes_as_websocket (.reading []) .ntex writesPastClose _ rfl).2.1 rfl

end Bridge

end Rifts
