import Mathlib.Data.List.Pairwise
import Rifts.Client.Replies

/-! Replies reach the commands they answer, whatever the order of the steps, and which commands
leave an entry behind. -/
namespace Rifts

open Transition

namespace Correlation

abbrev Tasks := Pool ReplyTables ReplyPhase

abbrev Act := Pool.Act ReplyCall ReplyInput

def step (J : SerdeJson) (p : Tasks) (a : Act) : Option Tasks :=
  Pool.step (ReplyPhase.program J) p a

/-- A client that has not connected. -/
def new : Tasks := ⟨{}, []⟩

/-- The correlation id of a command. -/
def commandId : ReplyPhase → Option String
  | .requireConnected cmd | .register cmd | .send cmd _ | .await cmd _ | .cleanup cmd _ _
  | .failed cmd _ _ | .replied cmd _ _ | .refused cmd => some cmd.correlationId
  | .resolve .. | .deliver .. | .dispatched .. | .connect | .reconnect | .close | .release _
  | .done => none

/-- What a command has registered. -/
def ticket : ReplyPhase → Option Ticket
  | .send _ t | .await _ t | .cleanup _ t _ | .failed _ t _ | .replied _ t _ => some t
  | .requireConnected _ | .register _ | .refused _ | .resolve .. | .deliver .. | .dispatched ..
  | .connect | .reconnect | .close | .release _ | .done => none

/-- The channel that a command has opened. -/
def channel (u : ReplyPhase) : Option Nat := (ticket u).map Ticket.ch

/-- The channel whose sender a dispatch has taken from a table. -/
def sender : ReplyPhase → Option Nat
  | .deliver _ ch => some ch
  | .dispatched _ ch => ch
  | _ => none

/-- The command has returned, and its cleanup, if it needs one, has run. -/
def settled : ReplyPhase → Bool
  | .failed .. | .replied .. | .refused _ => true
  | _ => false

/-- The dispatch has handed its reply to the command, which has returned it. -/
def Completes : ReplyPhase → ReplyPhase → Prop
  | .dispatched reply (some ch), .replied _ t reply' => ch = t.ch ∧ reply = reply'
  | _, _ => False

/-- A command with this id has opened this channel. -/
def Owned (ts : List ReplyPhase) (id : String) (ch : Nat) : Prop :=
  ∃ u ∈ ts, commandId u = some id ∧ channel u = some ch

/-- The dispatch has taken the sender of this channel, for a reply with this id. -/
def Carries : ReplyPhase → String → Nat → Prop
  | .deliver reply ch, id, k => reply.correlationId = id ∧ ch = k
  | .dispatched reply (some ch), id, k => reply.correlationId = id ∧ ch = k
  | _, _, _ => False

/-- Commands and replies at one point of a run, one to one. -/
structure Correlated (p : Tasks) : Prop where
  own : ∀ cmd t reply, .replied cmd t reply ∈ p.threads →
    reply.correlationId = cmd.correlationId
  completed : ∀ cmd t reply, .replied cmd t reply ∈ p.threads →
    ∃ d ∈ p.threads, Completes d (.replied cmd t reply)
  atMostOne : ∀ d ∈ p.threads, ∀ (i j : Nat) u v, p.threads[i]? = some u →
    p.threads[j]? = some v → Completes d u → Completes d v → i = j
  sole : ∀ u ∈ p.threads, ∀ (i j : Nat) d e, p.threads[i]? = some d →
    p.threads[j]? = some e → Completes d u → Completes e u → i = j

/-- A command that is over has left no entry in any table. -/
def Clean (p : Tasks) : Prop :=
  ∀ u ∈ p.threads, settled u = true → ∀ id, commandId u = some id →
    ∀ conn, p.shared.pendingReplies (conn, id) = none

/-- A new command has a correlation id of its own. -/
def Fresh (p : Tasks) : Act → Prop
  | .spawn (.command cmd) => ∀ u ∈ p.threads, commandId u ≠ some cmd.correlationId
  | .spawn _ | .advance .. => True

instance {p : Tasks} : DecidablePred (Fresh p)
  | .spawn (.command cmd) =>
    List.decidableBAll (fun u => commandId u ≠ some cmd.correlationId) p.threads
  | .spawn (.dispatch ..) | .spawn .connect | .spawn .reconnect | .spawn .close
  | .spawn (.release _) | .advance .. => .isTrue trivial

/-- When its cleanup runs, the command's connection is in the slot, or the entry is gone. -/
def reaches (s : ReplyTables) (u : ReplyPhase) (_ : ReplyInput) : Prop :=
  match u with
  | .cleanup cmd t _ =>
    s.slot = some t.conn ∨ s.pendingReplies (t.conn, cmd.correlationId) = none
  | _ => True

instance (s : ReplyTables) (u : ReplyPhase) (input : ReplyInput) : Decidable (reaches s u input) :=
  match u with
  | .cleanup cmd t _ => inferInstanceAs
      (Decidable (s.slot = some t.conn ∨ s.pendingReplies (t.conn, cmd.correlationId) = none))
  | .requireConnected _ | .register _ | .send .. | .await .. | .failed .. | .replied ..
  | .refused _ | .resolve .. | .deliver .. | .dispatched .. | .connect | .reconnect | .close
  | .release _ | .done => .isTrue trivial

/-- Where the channels and their senders are. A sender is in the table of the connection that its
command has registered with, under the command's id, or with one dispatch of a reply to that
command, but not with both. -/
structure Linked (p : Tasks) : Prop where
  ids : p.threads.Pairwise (Pool.Apart commandId)
  channels : p.threads.Pairwise (Pool.Apart channel)
  senders : p.threads.Pairwise (Pool.Apart sender)
  opened : ∀ u ∈ p.threads, ∀ ch, channel u = some ch → ch < p.shared.opened
  entry : ∀ conn id ch, p.shared.pendingReplies (conn, id) = some ch →
    ∃ u ∈ p.threads, commandId u = some id ∧ ticket u = some ⟨conn, ch⟩
  carried : ∀ u ∈ p.threads, ∀ id ch, Carries u id ch →
    Owned p.threads id ch ∧ ∀ key, p.shared.pendingReplies key ≠ some ch
  value : ∀ ch reply, (p.shared.channels ch).value = some reply →
    .dispatched reply (some ch) ∈ p.threads
  replied : ∀ cmd t reply, .replied cmd t reply ∈ p.threads →
    .dispatched reply (some t.ch) ∈ p.threads

section Steps

variable {s s' : ReplyTables} {u u' v : ReplyPhase} {pre post ts : List ReplyPhase} {id : String}
  {conn ch : Nat} {reply : Reply} {input : ReplyInput}

theorem channel_of_ticket {t : Ticket} (h : ticket u = some t) : channel u = some t.ch := by
  rw [channel, h]
  rfl

theorem owned_of_entry {p : Tasks} (hl : Linked p)
    (h : p.shared.pendingReplies (conn, id) = some ch) : Owned p.threads id ch := by
  obtain ⟨u, hu, hid, ht⟩ := hl.entry conn id ch h
  exact ⟨u, hu, hid, channel_of_ticket ht⟩

/-- Two commands with one id, or with one channel, are the same. -/
theorem owned_unique {p : Tasks} (hl : Linked p) {key : String} {k : Nat}
    (h : Owned p.threads id ch) (h' : Owned p.threads key k) : id = key ↔ ch = k := by
  obtain ⟨u, hu, hid, hch⟩ := h
  obtain ⟨v, hv, hkey, hk⟩ := h'
  constructor
  · rintro rfl
    obtain rfl := Pool.eq_of_apart hl.ids hu hv hid hkey
    exact Option.some.inj (hch.symm.trans hk)
  · rintro rfl
    obtain rfl := Pool.eq_of_apart hl.channels hu hv hch hk
    exact Option.some.inj (hid.symm.trans hkey)

/-- The entry of a command is in the table it has registered with. -/
theorem ticket_of_entry {p : Tasks} (hl : Linked p) (hu : u ∈ p.threads)
    (hid : commandId u = some id) (h : p.shared.pendingReplies (conn, id) = some ch) :
    ticket u = some ⟨conn, ch⟩ := by
  obtain ⟨v, hv, hvid, ht⟩ := hl.entry conn id ch h
  obtain rfl := Pool.eq_of_apart hl.ids hu hv hid hvid
  exact ht

theorem commandId_moves (h : ReplyPhase.Moves s u s' u') : commandId u' = commandId u := by
  cases h <;> rfl

/-- A command keeps its ticket, and draws a new channel when it registers. -/
theorem ticket_moves (h : ReplyPhase.Moves s u s' u') :
    ticket u' = ticket u ∧ s'.opened = s.opened ∨
      ticket u = none ∧ (∃ conn, ticket u' = some ⟨conn, s.opened⟩) ∧
        s'.opened = s.opened + 1 := by
  cases h with
  | register cmd conn => exact .inr ⟨rfl, ⟨conn, rfl⟩, ReplyTables.opened_register⟩
  | cleaned cmd t e => exact .inl ⟨rfl, ReplyTables.opened_cleanup⟩
  | release key => exact .inl ⟨rfl, ReplyTables.opened_dropEntry⟩
  | _ => exact .inl ⟨rfl, rfl⟩

theorem channel_moves (h : ReplyPhase.Moves s u s' u') :
    channel u' = channel u ∧ s'.opened = s.opened ∨
      channel u = none ∧ channel u' = some s.opened ∧ s'.opened = s.opened + 1 := by
  rcases ticket_moves h with ⟨hkeeps, hsame⟩ | ⟨hnone, ⟨conn, hnew⟩, hmore⟩
  · exact .inl ⟨by rw [channel, channel, hkeeps], hsame⟩
  · exact .inr ⟨by rw [channel, hnone]; rfl, channel_of_ticket hnew, hmore⟩

/-- Entries are made by commands that register, for themselves. -/
theorem pendingReplies_moves (h : ReplyPhase.Moves s u s' u')
    (hentry : s'.pendingReplies (conn, id) = some ch) :
    commandId u' = some id ∧ ticket u' = some ⟨conn, ch⟩ ∧ ch = s.opened ∨
      s.pendingReplies (conn, id) = some ch := by
  cases h with
  | register cmd conn' =>
    rcases ReplyTables.pendingReplies_register hentry with ⟨hkey, rfl⟩ | hold
    · cases hkey
      exact .inl ⟨rfl, rfl, rfl⟩
    · exact .inr hold
  | cleaned cmd t e =>
    rw [ReplyTables.pendingReplies_cleanup] at hentry
    split at hentry
    · cases hentry
    · exact .inr hentry
  | release key =>
    rw [ReplyTables.pendingReplies_dropEntry] at hentry
    exact .inr (ReplyTables.pendingReplies_of_update hentry)
  | taken conn' reply k => exact .inr (ReplyTables.pendingReplies_of_update hentry)
  | _ => exact .inr hentry

theorem sender_of_carries (h : Carries u id ch) : sender u = some ch := by
  unfold Carries at h
  split at h
  · rw [← h.2]; rfl
  · rw [← h.2]; rfl
  · exact h.elim

theorem carries_of_sender (h : sender u = some ch) : ∃ id, Carries u id ch := by
  unfold sender at h
  split at h
  · exact ⟨_, rfl, Option.some.inj h⟩
  · subst h
    exact ⟨_, rfl, rfl⟩
  · cases h

/-- A sender that is carried was in a table under the id of the reply. -/
theorem carries_moves (h : ReplyPhase.Moves s u s' u') :
    sender u' = sender u ∧ (∀ id ch, Carries u' id ch → Carries u id ch) ∨
      ∃ conn id ch, s.pendingReplies (conn, id) = some ch ∧
        s'.pendingReplies (conn, id) = none ∧ ∀ key k, Carries u' key k → key = id ∧ k = ch := by
  cases h with
  | taken conn reply ch hentry =>
    refine .inr ⟨conn, _, ch, hentry, Function.update_self .., ?_⟩
    rintro key k ⟨rfl, rfl⟩
    exact ⟨rfl, rfl⟩
  | delivered reply ch => exact .inl ⟨rfl, fun _ _ hc => hc⟩
  | _ => exact .inl ⟨rfl, fun _ _ hc => hc.elim⟩

theorem value_moves (h : ReplyPhase.Moves s u s' u')
    (hv : (s'.channels ch).value = some reply) :
    u' = .dispatched reply (some ch) ∨ (s.channels ch).value = some reply := by
  cases h with
  | register cmd conn => exact .inr (ReplyTables.value_dropEntry hv)
  | cleaned cmd t e => exact .inr (ReplyTables.value_cleanup hv)
  | release key => exact .inr (ReplyTables.value_dropEntry hv)
  | sendFailed | givenUp | replied =>
    rcases ReplyTables.value_onChannel hv with ⟨-, hdropped⟩ | hold
    · cases hdropped
    · exact .inr hold
  | delivered r k =>
    rcases ReplyTables.value_onChannel hv with ⟨rfl, hsent⟩ | hold
    · rcases Oneshot.value_send hsent with rfl | hold
      · exact .inl rfl
      · exact .inr hold
    · exact .inr hold
  | _ => exact .inr hv

/-- A dispatch that is over stays. -/
theorem dispatched_mem {k : Option Nat} (h : ReplyPhase.Moves s u s' u')
    (hd : .dispatched reply k ∈ pre ++ u :: post) : .dispatched reply k ∈ pre ++ u' :: post := by
  rcases Pool.mem_split_iff.mp hd with rfl | hother
  · cases h
  · exact Pool.mem_split_of_mem hother

/-- A command that has a ticket keeps it. -/
theorem ticket_mem {t : Ticket} (h : ReplyPhase.Moves s u s' u')
    (ho : ∃ v ∈ pre ++ u :: post, commandId v = some id ∧ ticket v = some t) :
    ∃ v ∈ pre ++ u' :: post, commandId v = some id ∧ ticket v = some t := by
  rw [Pool.exists_mem_split] at ho ⊢
  refine ho.imp_left ?_
  rintro ⟨hid, ht⟩
  rcases ticket_moves h with ⟨hkeeps, -⟩ | ⟨hnone, -⟩
  · exact ⟨(commandId_moves h).trans hid, hkeeps.trans ht⟩
  · rw [hnone] at ht
    cases ht

theorem owned_mem (h : ReplyPhase.Moves s u s' u') (ho : Owned (pre ++ u :: post) id ch) :
    Owned (pre ++ u' :: post) id ch := by
  obtain ⟨v, hv, hid, hch⟩ := ho
  obtain ⟨t, ht, rfl⟩ := Option.map_eq_some_iff.mp hch
  obtain ⟨w, hw, hwid, hwt⟩ := ticket_mem h ⟨v, hv, hid, ht⟩
  exact ⟨w, hw, hwid, channel_of_ticket hwt⟩

theorem owned_lt (hl : Linked ⟨s, ts⟩) (ho : Owned ts id ch) : ch < s.opened := by
  obtain ⟨v, hv, -, hch⟩ := ho
  exact hl.opened v hv ch hch

variable (h : ReplyPhase.Moves s u s' u') (hl : Linked ⟨s, pre ++ u :: post⟩)
include h hl

theorem channels_moves : (pre ++ u' :: post).Pairwise (Pool.Apart channel) := by
  refine Pool.apart_next hl.channels ?_
  rcases channel_moves h with ⟨hkeeps, -⟩ | ⟨-, hopens, -⟩
  · exact .inl hkeeps
  · right
    intro v hv ch hch hv'
    have hlt : ch < s.opened := hl.opened v (Pool.mem_split_of_mem hv) ch hv'
    rw [hopens, Option.some.injEq] at hch
    omega

theorem senders_moves : (pre ++ u' :: post).Pairwise (Pool.Apart sender) := by
  refine Pool.apart_next hl.senders ?_
  rcases carries_moves h with ⟨hkeeps, -⟩ | ⟨conn, id, ch, hentry, -, hnew⟩
  · exact .inl hkeeps
  · right
    intro v hv k hk hvk
    obtain ⟨key, hkey⟩ := carries_of_sender hk
    obtain ⟨key', hkey'⟩ := carries_of_sender hvk
    obtain ⟨rfl, rfl⟩ := hnew key k hkey
    exact (hl.carried v (Pool.mem_split_of_mem hv) key' k hkey').2 _ hentry

theorem opened_moves (v : ReplyPhase) (hv : v ∈ pre ++ u' :: post) (ch : Nat)
    (hch : channel v = some ch) : ch < s'.opened := by
  rcases Pool.mem_split_iff.mp hv with rfl | hother
  · rcases channel_moves h with ⟨hkeeps, hsame⟩ | ⟨-, hopens, hmore⟩
    · rw [hsame]
      exact hl.opened u Pool.mem_split ch (hkeeps ▸ hch)
    · rw [hopens, Option.some.injEq] at hch
      omega
  · have hold : ch < s.opened := hl.opened v (Pool.mem_split_of_mem hother) ch hch
    rcases channel_moves h with ⟨-, hsame⟩ | ⟨-, -, hmore⟩ <;> omega

theorem entry_moves (conn : Nat) (id : String) (ch : Nat)
    (hentry : s'.pendingReplies (conn, id) = some ch) :
    ∃ v ∈ pre ++ u' :: post, commandId v = some id ∧ ticket v = some ⟨conn, ch⟩ := by
  rcases pendingReplies_moves h hentry with ⟨hid, ht, -⟩ | hold
  · exact ⟨u', Pool.mem_split, hid, ht⟩
  · exact ticket_mem h (hl.entry conn id ch hold)

/-- A sender that was out of the tables is not put back. -/
theorem not_pending_moves (ho : Owned (pre ++ u :: post) id ch)
    (hout : ∀ key, s.pendingReplies key ≠ some ch) (key : ReplyKey) :
    s'.pendingReplies key ≠ some ch := by
  intro hentry
  rcases pendingReplies_moves h hentry with ⟨-, -, hnew⟩ | hold
  · have := owned_lt hl ho
    omega
  · exact hout key hold

theorem carried_moves (v : ReplyPhase) (hv : v ∈ pre ++ u' :: post) (id : String) (ch : Nat)
    (hc : Carries v id ch) :
    Owned (pre ++ u' :: post) id ch ∧ ∀ key, s'.pendingReplies key ≠ some ch := by
  have hold : ∀ w ∈ pre ++ u :: post, Carries w id ch →
      Owned (pre ++ u' :: post) id ch ∧ ∀ key, s'.pendingReplies key ≠ some ch := by
    intro w hw hcw
    obtain ⟨ho, hout⟩ := hl.carried w hw id ch hcw
    exact ⟨owned_mem h ho, not_pending_moves h hl ho hout⟩
  rcases Pool.mem_split_iff.mp hv with rfl | hother
  · rcases carries_moves h with ⟨-, hkeeps⟩ | ⟨conn, key, k, hentry, hgone, hnew⟩
    · exact hold u Pool.mem_split (hkeeps id ch hc)
    · obtain ⟨rfl, rfl⟩ := hnew id ch hc
      have ho := owned_of_entry hl hentry
      refine ⟨owned_mem h ho, ?_⟩
      rintro ⟨conn', key⟩ hkey
      rcases pendingReplies_moves h hkey with ⟨-, -, hfresh⟩ | hkey'
      · have := owned_lt hl ho
        omega
      · -- the other entry would be of the same command, and so this one, which is gone
        obtain rfl := (owned_unique hl (owned_of_entry hl hkey') ho).mpr rfl
        obtain ⟨w, hw, hwid, hwt⟩ := hl.entry conn key ch hentry
        obtain rfl : conn' = conn := by
          have heq := (ticket_of_entry hl hw hwid hkey').symm.trans hwt
          exact congrArg Ticket.conn (Option.some.inj heq)
        rw [hgone] at hkey
        cases hkey
  · exact hold v (Pool.mem_split_of_mem hother) hc

theorem dispatched_of_value (ch : Nat) (reply : Reply)
    (hv : (s'.channels ch).value = some reply) :
    .dispatched reply (some ch) ∈ pre ++ u' :: post := by
  rcases value_moves h hv with rfl | hold
  · exact Pool.mem_split
  · exact dispatched_mem h (hl.value ch reply hold)

theorem replied_moves (cmd : CommandCall) (t : Ticket) (reply : Reply)
    (hr : .replied cmd t reply ∈ pre ++ u' :: post) :
    .dispatched reply (some t.ch) ∈ pre ++ u' :: post := by
  refine dispatched_mem h ?_
  rcases Pool.mem_split_iff.mp hr with rfl | hother
  · cases h with
    | replied _ _ _ hvalue => exact hl.value t.ch reply hvalue
  · exact hl.replied cmd t reply (Pool.mem_split_of_mem hother)

theorem linked_moves : Linked ⟨s', pre ++ u' :: post⟩ where
  ids := Pool.apart_next hl.ids (.inl (commandId_moves h))
  channels := channels_moves h hl
  senders := senders_moves h hl
  opened := opened_moves h hl
  entry := entry_moves h hl
  carried := carried_moves h hl
  value := dispatched_of_value h hl
  replied := replied_moves h hl

omit h in
/-- A command that finds its reply has no entry: the sender was taken out to send it. -/
theorem not_pending_of_value (hu : commandId u = some id) (hch : channel u = some ch)
    (hvalue : (s.channels ch).value = some reply) : s.pendingReplies (conn, id) = none := by
  rw [Option.eq_none_iff_forall_ne_some]
  intro k hentry
  have hown : Owned (pre ++ u :: post) id ch := ⟨u, Pool.mem_split, hu, hch⟩
  obtain rfl := (owned_unique hl hown (owned_of_entry hl hentry)).mp rfl
  exact (hl.carried _ (hl.value ch reply hvalue) _ ch ⟨rfl, rfl⟩).2 _ hentry

omit h in
/-- A command that has registered nothing has no entry. -/
theorem not_pending_of_no_ticket (hu : commandId u = some id) (ht : ticket u = none) :
    s.pendingReplies (conn, id) = none := by
  rw [Option.eq_none_iff_forall_ne_some]
  intro k hentry
  rw [ticket_of_entry hl Pool.mem_split hu hentry] at ht
  cases ht

/-- A step of another task leaves a command without an entry. -/
theorem not_pending_of_other (hv : v ∈ pre ++ post) (hid : commandId v = some id)
    (hnone : s.pendingReplies (conn, id) = none) : s'.pendingReplies (conn, id) = none := by
  rw [Option.eq_none_iff_forall_ne_some]
  intro ch hentry
  rcases pendingReplies_moves h hentry with ⟨hsame, -⟩ | hold
  · have hapart := (Pool.apart_split.mp hl.ids).1 v hv
    exact hapart id ((commandId_moves h).symm.trans hsame) hid
  · rw [hnone] at hold
    cases hold

/-- The cleanup of a command leaves no entry exactly when it reaches the command's table. -/
theorem not_pending_cleanup_iff {cmd : CommandCall} {t : Ticket} {e : ClientError}
    (hu : u = .cleanup cmd t e) :
    (∀ conn, (s.cleanup cmd.correlationId).pendingReplies (conn, cmd.correlationId) = none) ↔
      reaches s u input := by
  subst hu
  simp only [ReplyTables.pendingReplies_cleanup, and_true, reaches]
  constructor
  · intro hall
    have hgone := hall t.conn
    split at hgone
    · next hslot => exact .inl hslot
    · exact .inr hgone
  · intro hreaches conn
    split
    · rfl
    · next hslot =>
      -- an entry would be in the table of the command's own connection
      rw [Option.eq_none_iff_forall_ne_some]
      intro ch hentry
      have hticket := ticket_of_entry hl Pool.mem_split rfl hentry
      cases hticket
      rcases hreaches with hslot' | hnone
      · exact hslot hslot'
      · rw [hnone] at hentry
        cases hentry

theorem clean_moves_iff (hc : Clean ⟨s, pre ++ u :: post⟩) :
    Clean ⟨s', pre ++ u' :: post⟩ ↔ reaches s u input := by
  obtain ⟨-, hrest⟩ := Pool.forall_mem_split.mp hc
  have hothers : ∀ v ∈ pre ++ post, settled v = true → ∀ id, commandId v = some id →
      ∀ conn, s'.pendingReplies (conn, id) = none := by
    intro v hv hs id hid conn
    exact not_pending_of_other h hl hv hid (hrest v hv hs id hid conn)
  rw [Clean, Pool.forall_mem_split, and_iff_left hothers]
  cases h with
  | cleaned cmd t e =>
    rw [← not_pending_cleanup_iff (.cleaned cmd t e) hl rfl]
    constructor
    · exact fun hself => hself rfl _ rfl
    · rintro hgone - id ⟨⟩
      exact hgone
  | replied cmd t reply hvalue =>
    refine iff_of_true ?_ trivial
    rintro - id ⟨⟩ conn
    have hnone : s.pendingReplies (conn, cmd.correlationId) = none :=
      not_pending_of_value hl rfl rfl hvalue
    exact hnone
  | unconnected cmd | unregistered cmd =>
    refine iff_of_true ?_ trivial
    rintro - id ⟨⟩ conn
    exact not_pending_of_no_ticket hl rfl rfl
  | _ => exact iff_of_true (fun hs => by cases hs) trivial

end Steps

section Runs

variable {J : SerdeJson} {p p' : Tasks} {a : Act} {s : ReplyTables} {ts : List ReplyPhase}

theorem linked_new : Linked new := by
  constructor <;> simp [new]

theorem start_fresh {call : ReplyCall} (hf : Fresh ⟨s, ts⟩ (.spawn call)) (u : ReplyPhase)
    (hu : u ∈ ts) : Pool.Apart commandId u (.start J call) := by
  intro id hid hstart
  cases call with
  | command cmd =>
    cases hstart
    exact hf u hu hid
  | dispatch conn f =>
    simp only [ReplyPhase.start] at hstart
    split at hstart <;> cases hstart
  | connect | reconnect | close | release => cases hstart

/-- A task that has not started holds nothing. -/
theorem start_idle (call : ReplyCall) :
    channel (.start J call) = none ∧ sender (.start J call) = none ∧
      settled (.start J call) = false := by
  cases call with
  | dispatch conn f =>
    simp only [ReplyPhase.start]
    split <;> exact ⟨rfl, rfl, rfl⟩
  | command | connect | reconnect | close | release => exact ⟨rfl, rfl, rfl⟩

theorem linked_spawn {call : ReplyCall} (hf : Fresh ⟨s, ts⟩ (.spawn call)) (hl : Linked ⟨s, ts⟩) :
    Linked ⟨s, ts ++ [.start J call]⟩ := by
  obtain ⟨hchannel, hsender, hsettled⟩ := start_idle (J := J) call
  have hmem {u : ReplyPhase} (hu : u ∈ ts ++ [.start J call]) : u ∈ ts ∨ u = .start J call :=
    (List.mem_append.mp hu).imp_right List.mem_singleton.mp
  constructor
  · exact Pool.apart_concat hl.ids (start_fresh hf)
  · exact Pool.apart_concat hl.channels fun u _ x _ hx => by rw [hchannel] at hx; cases hx
  · exact Pool.apart_concat hl.senders fun u _ x _ hx => by rw [hsender] at hx; cases hx
  · intro u hu ch hch
    rcases hmem hu with hold | rfl
    · exact hl.opened u hold ch hch
    · rw [hchannel] at hch
      cases hch
  · intro conn id ch hentry
    obtain ⟨u, hu, hticket⟩ := hl.entry conn id ch hentry
    exact ⟨u, List.mem_append_left _ hu, hticket⟩
  · intro u hu id ch hc
    rcases hmem hu with hold | rfl
    · obtain ⟨⟨v, hv, ho⟩, hout⟩ := hl.carried u hold id ch hc
      exact ⟨⟨v, List.mem_append_left _ hv, ho⟩, hout⟩
    · rw [sender_of_carries hc] at hsender
      cases hsender
  · intro ch reply hv
    exact List.mem_append_left _ (hl.value ch reply hv)
  · intro cmd t reply hr
    rcases hmem hr with hold | hnew
    · exact List.mem_append_left _ (hl.replied cmd t reply hold)
    · rw [← hnew] at hsettled
      cases hsettled

theorem linked_step (h : step J p a = some p') (hf : Fresh p a) (hl : Linked p) : Linked p' := by
  refine Pool.invariant_step_of_guard (fun s ts call => linked_spawn) ?_ h hf hl
  intro s pre u post input s' u' hn _
  exact linked_moves (ReplyPhase.moves_of_next hn)

theorem clean_step_iff (h : step J p a = some p') (hl : Linked p) (hc : Clean p) :
    Clean p' ↔ Pool.Allows reaches p a := by
  refine Pool.kept_iff_allows (J := Linked) ?_ ?_ h hl hc
  · intro s ts call hc u hu hs
    rcases List.mem_append.mp hu with hold | hnew
    · exact hc u hold hs
    · rw [List.mem_singleton.mp hnew] at hs
      exact absurd hs (Bool.eq_false_iff.mp (start_idle call).2.2)
  · intro s pre u post input s' u' hn
    exact clean_moves_iff (ReplyPhase.moves_of_next hn)

theorem completes_iff {d u : ReplyPhase} : Completes d u ↔
    ∃ cmd t reply, d = .dispatched reply (some t.ch) ∧ u = .replied cmd t reply := by
  constructor
  · intro h
    unfold Completes at h
    split at h
    · obtain ⟨rfl, rfl⟩ := h
      exact ⟨_, _, _, rfl, rfl⟩
    · exact h.elim
  · rintro ⟨cmd, t, reply, rfl, rfl⟩
    exact ⟨rfl, rfl⟩

theorem correlated_of_linked (hl : Linked p) : Correlated p where
  own cmd t reply hr := by
    have hd := hl.replied cmd t reply hr
    have hown : Owned p.threads cmd.correlationId t.ch := ⟨_, hr, rfl, rfl⟩
    have hcarried := (hl.carried _ hd reply.correlationId t.ch ⟨rfl, rfl⟩).1
    exact (owned_unique hl hcarried hown).mpr rfl
  completed cmd t reply hr := ⟨_, hl.replied cmd t reply hr, rfl, rfl⟩
  atMostOne d _ i j u v hi hj hu hv := by
    obtain ⟨cmd, t, reply, rfl, rfl⟩ := completes_iff.mp hu
    obtain ⟨cmd', t', reply', hd, rfl⟩ := completes_iff.mp hv
    injection hd with _ hch
    exact Pool.index_eq_of_apart hl.channels hi hj (x := t.ch) rfl
      (congrArg some (Option.some.inj hch).symm)
  sole u _ i j d e hi hj hd he := by
    obtain ⟨cmd, t, reply, rfl, rfl⟩ := completes_iff.mp hd
    obtain ⟨cmd', t', reply', rfl, hu⟩ := completes_iff.mp he
    cases hu
    exact Pool.index_eq_of_apart hl.senders hi hj rfl rfl

/-- Commands with ids of their own are answered one to one in every run. None of them leaves an
entry behind exactly when each cleanup finds the connection of its command in the slot, or the
entry already gone. -/
theorem correlated_and_clean_iff (J : SerdeJson) (as : List Act)
    (hf : Guarded (step J) Fresh new as) :
    Throughout (step J) Correlated new as ∧
      (Throughout (step J) Clean new as ↔ Guarded (step J) (Pool.Allows reaches) new as) := by
  have hlinked := throughout_of_guarded (P := Linked) (fun _ _ _ => linked_step) hf linked_new
  refine ⟨throughout_mono hlinked fun _ => correlated_of_linked, ?_⟩
  exact throughout_iff_guarded_of_fair (Q := Linked) (fun _ _ _ => linked_step)
    (fun _ _ _ h _ => clean_step_iff h) hf linked_new (by simp [Clean, new])

end Runs

def replyTo (id : String) : Json :=
  .object [("class", .string "reply"), ("correlation_id", .string id), ("status", .string "ok"),
    ("server_time", .number (.posInt 0))]

def replyFrame (id : String) : Frame :=
  { frameType := .data, payload := some (replyTo id).text }

/-- Two commands. The first is answered twice; the second gives up just before its answer. -/
def lateReply : List Act :=
  [.spawn .connect, .advance 0 .ready,
    .spawn (.command { correlationId := "a" }), .advance 1 .ready, .advance 1 .ready,
    .advance 1 .ready,
    .spawn (.command { correlationId := "b" }), .advance 2 .ready, .advance 2 .ready,
    .advance 2 .ready,
    .spawn (.dispatch 0 (replyFrame "a")), .advance 3 .ready, .advance 2 .elapsed,
    .advance 3 .ready, .spawn (.dispatch 0 (replyFrame "b")), .advance 4 .ready, .advance 4 .ready,
    .advance 2 .ready, .advance 1 .ready, .spawn (.dispatch 0 (replyFrame "a")), .advance 5 .ready]

set_option maxRecDepth 4000 in
theorem lateReply_correlated :
    Throughout (step (.reading [replyTo "a", replyTo "b"])) Correlated new lateReply ∧
      Throughout (step (.reading [replyTo "a", replyTo "b"])) Clean new lateReply ∧
      ∃ p, run (step (.reading [replyTo "a", replyTo "b"])) new lateReply = some p ∧
        p.threads.map settled = [false, true, true, false, false, false] := by
  obtain ⟨hcorrelated, hclean⟩ :=
    correlated_and_clean_iff (.reading [replyTo "a", replyTo "b"]) lateReply (by decide +kernel)
  exact ⟨hcorrelated, hclean.mpr (by decide +kernel), by decide +kernel⟩

/-- The client is closed between the registration of a command and its send. -/
def closedBeforeSend : List Act :=
  [.spawn .connect, .advance 0 .ready, .spawn (.command { correlationId := "a" }),
    .advance 1 .ready, .advance 1 .ready, .spawn .close, .advance 2 .ready, .advance 1 .ready,
    .advance 1 .ready]

/-- The command has returned that the client is not connected, its cleanup has run, and its entry
is still in the table. -/
theorem closed_before_send_leaves_entry :
    ∃ p, run (step (.reading [])) new closedBeforeSend = some p ∧
      p.threads[1]? = some (.failed { correlationId := "a" } ⟨0, 0⟩ .notConnected) ∧
      p.shared.pendingReplies (0, "a") = some 0 ∧ ¬ Clean p := by
  refine ⟨_, rfl, rfl, rfl, ?_⟩
  intro hclean
  have hnone := hclean (.failed { correlationId := "a" } ⟨0, 0⟩ .notConnected)
    (List.mem_of_getElem? (i := 1) rfl) rfl "a" rfl 0
  cases hnone

end Correlation

end Rifts
