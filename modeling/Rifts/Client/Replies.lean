import Mathlib.Logic.Function.Basic
import Rifts.Client.Dispatch
import Rifts.Sync.Oneshot
import Rifts.Transition.Pool

/-! Commands that wait for their replies while readers dispatch frames and the client changes its
connection. -/
namespace Rifts

open Transition

/-- The errors a command can return. -/
inductive ClientError
  | notConnected
  | webSocket
  | protocol
  | commandTimeout (timeoutMs : UInt64)
  deriving DecidableEq, Repr

structure CommandCall where
  correlationId : String
  timeoutMs : UInt64 := 5000
  deriving DecidableEq, Repr

/-- A connection, and a key of its table of pending replies. -/
abbrev ReplyKey := Nat × String

/-- What a command has registered: the connection it did so with, and its channel. -/
structure Ticket where
  conn : Nat
  ch : Nat
  deriving DecidableEq, Repr

/-- The slot of a client with the connection it is on, and the waiting commands of all its
connections. A sender is known by the channel it belongs to; `installed` and `opened` count the
connections and the channels. -/
structure ReplyTables where
  slot : Option Nat := none
  installed : Nat := 0
  pendingReplies : ReplyKey → Option Nat := fun _ => none
  channels : Nat → Oneshot Reply := fun _ => {}
  opened : Nat := 0

namespace ReplyTables

/-- A new connection, with a table of its own, goes into the slot. -/
def install (s : ReplyTables) : ReplyTables :=
  { s with slot := some s.installed, installed := s.installed + 1 }

def onChannel (s : ReplyTables) (ch : Nat) (f : Oneshot Reply → Oneshot Reply) : ReplyTables :=
  { s with channels := Function.update s.channels ch (f (s.channels ch)) }

/-- `HashMap::remove`: the sender, if there is one, goes to the caller. -/
def take (s : ReplyTables) (key : ReplyKey) : ReplyTables :=
  { s with pendingReplies := Function.update s.pendingReplies key none }

/-- A sender that leaves its table to nobody is dropped. -/
def dropEntry (s : ReplyTables) (key : ReplyKey) : ReplyTables :=
  match s.pendingReplies key with
  | some ch => (s.take key).onChannel ch Oneshot.dropSender
  | none => s

/-- A channel is opened, and its sender put in the table. -/
def register (s : ReplyTables) (key : ReplyKey) : ReplyTables :=
  let t := s.dropEntry key
  { t with
    pendingReplies := Function.update t.pendingReplies key (some t.opened)
    opened := t.opened + 1 }

/-- The closure `cleanup`: the entry is removed from the table of the connection that is in the
slot by then, if there is one. -/
def cleanup (s : ReplyTables) (correlationId : String) : ReplyTables :=
  match s.slot with
  | some conn => s.dropEntry (conn, correlationId)
  | none => s

variable {s : ReplyTables} {id : String} {key key' : ReplyKey} {ch k : Nat}
  {f : Oneshot Reply → Oneshot Reply}

theorem pendingReplies_dropEntry :
    (s.dropEntry key).pendingReplies = Function.update s.pendingReplies key none := by
  unfold dropEntry
  split
  · rfl
  · next h => rw [← h, Function.update_eq_self]

@[simp] theorem opened_dropEntry : (s.dropEntry key).opened = s.opened := by
  unfold dropEntry
  split <;> rfl

theorem opened_register : (s.register key).opened = s.opened + 1 := by
  simp [register]

@[simp] theorem opened_cleanup : (s.cleanup id).opened = s.opened := by
  unfold cleanup
  split
  · exact opened_dropEntry
  · rfl

/-- The entry goes if the slot holds its connection, and stays otherwise. -/
theorem pendingReplies_cleanup : (s.cleanup id).pendingReplies key =
    if s.slot = some key.1 ∧ key.2 = id then none else s.pendingReplies key := by
  unfold cleanup
  split
  · next conn hslot =>
    rw [pendingReplies_dropEntry, Function.update_apply]
    simp only [hslot, Option.some.injEq, Prod.ext_iff, eq_comm]
  · next hslot => simp [hslot]

/-- An entry after a command has registered is the new one, or was there. -/
theorem pendingReplies_register (h : (s.register key).pendingReplies key' = some ch) :
    key' = key ∧ ch = s.opened ∨ s.pendingReplies key' = some ch := by
  simp only [register, pendingReplies_dropEntry, opened_dropEntry] at h
  by_cases hkey : key' = key
  · subst hkey
    rw [Function.update_self] at h
    exact .inl ⟨rfl, (Option.some.inj h).symm⟩
  · rw [Function.update_of_ne hkey, Function.update_of_ne hkey] at h
    exact .inr h

theorem pendingReplies_of_update {m : ReplyKey → Option Nat}
    (h : Function.update m key none key' = some ch) : m key' = some ch := by
  by_cases hkey : key' = key
  · subst hkey
    rw [Function.update_self] at h
    cases h
  · rwa [Function.update_of_ne hkey] at h

theorem value_onChannel {reply : Reply} (h : ((s.onChannel ch f).channels k).value = some reply) :
    k = ch ∧ (f (s.channels ch)).value = some reply ∨ (s.channels k).value = some reply := by
  by_cases hk : k = ch
  · subst hk
    simp only [onChannel, Function.update_self] at h
    exact .inl ⟨rfl, h⟩
  · simp only [onChannel, Function.update_of_ne hk] at h
    exact .inr h

theorem value_dropEntry {reply : Reply} (h : ((s.dropEntry key).channels k).value = some reply) :
    (s.channels k).value = some reply := by
  unfold dropEntry at h
  split at h
  · rcases value_onChannel h with ⟨rfl, hv⟩ | hv <;> exact hv
  · exact h

theorem value_cleanup {reply : Reply} (h : ((s.cleanup id).channels k).value = some reply) :
    (s.channels k).value = some reply := by
  unfold cleanup at h
  split at h
  · exact value_dropEntry h
  · exact h

end ReplyTables

/-- What the tasks around a client are started for. A reader dispatches the frames of its own
connection. `release` drops one sender of a table that goes with its connection. -/
inductive ReplyCall
  | command (cmd : CommandCall)
  | dispatch (conn : Nat) (frame : Frame)
  | connect
  | reconnect
  | close
  | release (key : ReplyKey)

/-- Where a task stands. A command that has returned an error is in `cleanup` until the task
it has spawned has run, then in `failed`; one that was refused before it had an entry has nothing
to clean up. -/
inductive ReplyPhase
  | requireConnected (cmd : CommandCall)
  | register (cmd : CommandCall)
  | send (cmd : CommandCall) (ticket : Ticket)
  | await (cmd : CommandCall) (ticket : Ticket)
  | cleanup (cmd : CommandCall) (ticket : Ticket) (e : ClientError)
  | failed (cmd : CommandCall) (ticket : Ticket) (e : ClientError)
  | replied (cmd : CommandCall) (ticket : Ticket) (reply : Reply)
  | refused (cmd : CommandCall)
  | resolve (conn : Nat) (reply : Reply)
  | deliver (reply : Reply) (ch : Nat)
  | dispatched (reply : Reply) (ch : Option Nat)
  | connect
  | reconnect
  | close
  | release (key : ReplyKey)
  | done

/-- What a step may meet: nothing, an error of the socket, or the end of the timeout. -/
inductive ReplyInput
  | ready
  | fails (e : ClientError)
  | elapsed
  deriving DecidableEq, Repr

/-- The reply that a dispatched frame hands on. -/
def resolved (J : SerdeJson) (f : Frame) : Option Reply :=
  (dispatchFrame J f).findSome? fun
    | .resolve reply => some reply
    | _ => none

namespace ReplyPhase

def start (J : SerdeJson) : ReplyCall → ReplyPhase
  | .command cmd => .requireConnected cmd
  | .dispatch conn f =>
    match resolved J f with
    | some reply => .resolve conn reply
    | none => .done
  | .connect => .connect
  | .reconnect => .reconnect
  | .close => .close
  | .release key => .release key

/-- One step of a task. The timer of a command may also win against a reply that is there. -/
def next (s : ReplyTables) (u : ReplyPhase) (input : ReplyInput) :
    Option (ReplyTables × ReplyPhase) :=
  match u with
  | .requireConnected cmd => some (s, if s.slot.isNone then .refused cmd else .register cmd)
  | .register cmd =>
    match s.slot with
    | none => some (s, .refused cmd)
    | some conn => some (s.register (conn, cmd.correlationId), .send cmd ⟨conn, s.opened⟩)
  | .send cmd ticket =>
    match s.slot, input with
    | none, _ =>
      some (s.onChannel ticket.ch Oneshot.dropReceiver, .cleanup cmd ticket .notConnected)
    | some _, .fails e => some (s.onChannel ticket.ch Oneshot.dropReceiver, .cleanup cmd ticket e)
    | some _, _ => some (s, .await cmd ticket)
  | .await cmd ticket =>
    match input with
    | .elapsed =>
      some (s.onChannel ticket.ch Oneshot.dropReceiver,
        .cleanup cmd ticket (.commandTimeout cmd.timeoutMs))
    | _ =>
      match (s.channels ticket.ch).poll with
      | .pending => none
      | .ready reply => some (s.onChannel ticket.ch Oneshot.dropReceiver, .replied cmd ticket reply)
      | .closed =>
        some (s.onChannel ticket.ch Oneshot.dropReceiver, .cleanup cmd ticket .notConnected)
  | .cleanup cmd ticket e => some (s.cleanup cmd.correlationId, .failed cmd ticket e)
  | .resolve conn reply =>
    match s.pendingReplies (conn, reply.correlationId) with
    | some ch => some (s.take (conn, reply.correlationId), .deliver reply ch)
    | none => some (s, .dispatched reply none)
  | .deliver reply ch => some (s.onChannel ch (Oneshot.send · reply), .dispatched reply (some ch))
  | .connect =>
    match s.slot, input with
    | none, .ready => some (s.install, .done)
    -- the client is connected already, or the attempt has failed
    | _, _ => some (s, .done)
  | .reconnect =>
    match input with
    | .ready => some (s.install, .done)
    | _ => some (s, .done)
  | .close => some ({ s with slot := none }, .done)
  -- the client keeps the connection that is in its slot
  | .release key => if s.slot = some key.1 then none else some (s.dropEntry key, .done)
  | .failed .. | .replied .. | .refused _ | .dispatched .. | .done => none

def program (J : SerdeJson) : Program ReplyTables ReplyPhase ReplyCall ReplyInput :=
  ⟨start J, next⟩

/-- Everything a step can do. -/
inductive Moves (s : ReplyTables) : ReplyPhase → ReplyTables → ReplyPhase → Prop
  | connected (cmd) : Moves s (.requireConnected cmd) s (.register cmd)
  | unconnected (cmd) : Moves s (.requireConnected cmd) s (.refused cmd)
  | unregistered (cmd) : Moves s (.register cmd) s (.refused cmd)
  | register (cmd conn) :
      Moves s (.register cmd) (s.register (conn, cmd.correlationId)) (.send cmd ⟨conn, s.opened⟩)
  | sent (cmd ticket) : Moves s (.send cmd ticket) s (.await cmd ticket)
  | sendFailed (cmd ticket e) :
      Moves s (.send cmd ticket) (s.onChannel ticket.ch Oneshot.dropReceiver)
        (.cleanup cmd ticket e)
  | givenUp (cmd ticket e) :
      Moves s (.await cmd ticket) (s.onChannel ticket.ch Oneshot.dropReceiver)
        (.cleanup cmd ticket e)
  | replied (cmd ticket reply) (hvalue : (s.channels ticket.ch).value = some reply) :
      Moves s (.await cmd ticket) (s.onChannel ticket.ch Oneshot.dropReceiver)
        (.replied cmd ticket reply)
  | cleaned (cmd ticket e) :
      Moves s (.cleanup cmd ticket e) (s.cleanup cmd.correlationId) (.failed cmd ticket e)
  | taken (conn reply ch) (hentry : s.pendingReplies (conn, reply.correlationId) = some ch) :
      Moves s (.resolve conn reply) (s.take (conn, reply.correlationId)) (.deliver reply ch)
  | unknown (conn reply) : Moves s (.resolve conn reply) s (.dispatched reply none)
  | delivered (reply ch) :
      Moves s (.deliver reply ch) (s.onChannel ch (Oneshot.send · reply))
        (.dispatched reply (some ch))
  | connect (slot installed) : Moves s .connect { s with slot, installed } .done
  | reconnect (slot installed) : Moves s .reconnect { s with slot, installed } .done
  | close : Moves s .close { s with slot := none } .done
  | release (key) : Moves s (.release key) (s.dropEntry key) .done

theorem moves_of_next {s s' : ReplyTables} {u u' : ReplyPhase} {input : ReplyInput}
    (h : next s u input = some (s', u')) : Moves s u s' u' := by
  cases u with
  | requireConnected cmd =>
    cases h
    split
    · exact .unconnected cmd
    · exact .connected cmd
  | register cmd =>
    simp only [next] at h
    split at h
    · cases h
      exact .unregistered cmd
    · next conn _ =>
      cases h
      exact .register cmd conn
  | send cmd ticket =>
    simp only [next] at h
    split at h
    · cases h
      exact .sendFailed cmd ticket _
    · next e _ =>
      cases h
      exact .sendFailed cmd ticket e
    · cases h
      exact .sent cmd ticket
  | await cmd ticket =>
    cases input with
    | elapsed =>
      cases h
      exact .givenUp cmd ticket _
    | ready | fails =>
      simp only [next] at h
      split at h
      · cases h
      · next reply hpoll =>
        cases h
        exact .replied cmd ticket reply (Oneshot.value_of_poll hpoll)
      · cases h
        exact .givenUp cmd ticket _
  | resolve conn reply =>
    simp only [next] at h
    split at h
    · next ch hentry =>
      cases h
      exact .taken conn reply ch hentry
    · cases h
      exact .unknown conn reply
  | connect =>
    simp only [next] at h
    split at h
    · cases h
      exact .connect _ _
    · cases h
      exact .connect s.slot s.installed
  | reconnect =>
    simp only [next] at h
    split at h
    · cases h
      exact .reconnect _ _
    · cases h
      exact .reconnect s.slot s.installed
  | release key =>
    simp only [next] at h
    split at h
    · cases h
    · cases h
      exact .release key
  | failed | replied | refused | dispatched | done => cases h
  | cleanup | deliver | close =>
    cases h
    constructor

end ReplyPhase

end Rifts
