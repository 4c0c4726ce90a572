import Mathlib.Tactic.Basic
import Rifts.Core.Message

/-! Message bodies as `serde` writes them, and the functions that encode and decode them: what
is read from an object that has the fields of a body, each once, in any order and next to any
others. -/
namespace Rifts

namespace Json

def ofU32 (n : UInt32) : Json := .number (.posInt n.toUInt64)

/-- The value of an optional field. -/
def ofOption {α : Type} (write : α → Json) : Option α → Json
  | some a => write a
  | none => .null

/-- An optional value as it is read back: a null that was there counts as absent. -/
def nonNull : Option Json → Option Json
  | some .null => none
  | o => o

/-- The value has these fields, among others. -/
def Has (v : Json) (fields : List (String × Json)) : Prop := ∀ x ∈ fields, v.get x.1 = some x.2

/-- None of the names stands twice among the members of an object. -/
def once (names : List String) (members : List (String × Json)) : Bool :=
  names.all fun name => members.countP (fun x => x.1 == name) ≤ 1

mutual

/-- What `serde_json::Value` keeps of a text: of members with one key, the last. -/
def asValue : Json → Json
  | .array xs => .array (asValues xs)
  | .object members => .object (lastMembers members)
  | v => v

def asValues : List Json → List Json
  | [] => []
  | x :: xs => asValue x :: asValues xs

def lastMembers : List (String × Json) → List (String × Json)
  | [] => []
  | (key, x) :: rest =>
    if (rest.map Prod.fst).contains key then lastMembers rest
    else (key, asValue x) :: lastMembers rest

end

variable {v : Json} {key : String}

theorem optField_ofOption {α : Type} {read : Json → Option α} {write : α → Json} {o : Option α}
    (h : v.get key = some (ofOption write o)) (hread : ∀ a, read (write a) = some a)
    (hnull : ∀ a, write a ≠ .null) : v.optField key read = some o := by
  cases o with
  | none => simp [optField, h, ofOption]
  | some a =>
    simp only [optField, h, ofOption]
    split
    · next heq => cases heq
    · next heq => exact absurd (Option.some.inj heq) (hnull a)
    · next x hx heq =>
      cases heq
      rw [hread]
      rfl

theorem optField_string {o : Option String} (h : v.get key = some (ofOption .string o)) :
    v.optField key asStr = some o :=
  optField_ofOption h (fun _ => rfl) fun _ => nofun

theorem optField_u32 {o : Option UInt32} (h : v.get key = some (ofOption ofU32 o)) :
    v.optField key asU32 = some o :=
  optField_ofOption h asU32_toUInt64 fun _ => nofun

theorem ofI64_ne_null (i : Int64) : ofI64 i ≠ .null := by
  unfold ofI64
  split <;> nofun

theorem optField_i64 {o : Option Int64} (h : v.get key = some (ofOption ofI64 o)) :
    v.optField key asI64 = some o :=
  optField_ofOption h asI64_ofI64 ofI64_ne_null

theorem optField_value {o : Option Json} (h : v.get key = some (ofOption id o)) :
    v.optField key some = some (nonNull o) := by
  rcases o with _ | x
  · simp [optField, h, ofOption, nonNull]
  · cases x <;> simp [optField, h, ofOption, nonNull]

theorem once_of_nodup {names : List String} {members : List (String × Json)}
    (h : members.map Prod.fst = names) (hnodup : names.Nodup) : once names members = true := by
  refine List.all_eq_true.mpr fun name _ => decide_eq_true ?_
  have hcount : members.countP (fun x => x.1 == name) = names.count name := by
    rw [← h, List.count, List.countP_map]
    rfl
  rw [hcount]
  exact List.nodup_iff_count_le_one.mp hnodup name

theorem has_object {fields : List (String × Json)} (h : (fields.map Prod.fst).Nodup) :
    (Json.object fields).Has fields := by
  intro x hx
  induction fields with
  | nil => cases hx
  | cons y fields ih =>
    obtain ⟨key, value⟩ := y
    obtain ⟨hy, hrest⟩ := List.nodup_cons.mp h
    rcases List.mem_cons.mp hx with rfl | hx
    · exact List.lookup_cons_self
    · have hne : x.1 ≠ key := fun heq => hy (List.mem_map.mpr ⟨x, hx, heq⟩)
      have hx := ih hrest hx
      simp only [get, List.lookup_cons, beq_false_of_ne hne] at hx ⊢
      exact hx

end Json

/-- A command as a peer reads it. -/
structure Command where
  command : String
  correlationId : String
  timeoutMs : UInt32
  idempotencyKey : Option String
  payload : Json
  schema : String

def Command.fromValue (v : Json) : Option Command := do
  return { command := ← v.field "command" Json.asStr
           correlationId := ← v.field "correlation_id" Json.asStr
           timeoutMs := ← v.field "timeout_ms" Json.asU32
           idempotencyKey := ← v.optField "idempotency_key" Json.asStr
           payload := ← v.get "payload"
           schema := ← v.field "schema" Json.asStr }

structure Presence where
  subject : String
  status : String
  sessionId : Option String
  connectionId : Option String
  ttlMs : Option UInt32
  metadata : Option Json
  updatedAt : Int64

def Presence.fromValue (v : Json) : Option Presence := do
  return { subject := ← v.field "subject" Json.asStr
           status := ← v.field "status" Json.asStr
           sessionId := ← v.optField "session_id" Json.asStr
           connectionId := ← v.optField "connection_id" Json.asStr
           ttlMs := ← v.optField "ttl_ms" Json.asU32
           metadata := ← v.optField "metadata" some
           updatedAt := ← v.field "updated_at" Json.asI64 }

def ReplyStatus.name : ReplyStatus → String
  | .ok => "ok"
  | .error => "error"
  | .timeout => "timeout"
  | .rejected => "rejected"

def ReplyError.toValue (e : ReplyError) : Json :=
  .object [("code", .string e.code), ("message", .string e.message)]

/-! The fields of each record, in the order of its declaration. -/

def Event.fields (e : Event) : List (String × Json) :=
  [("event", .string e.event), ("message_id", .string e.messageId), ("schema", .string e.schema),
    ("payload", e.payload), ("dedupe_key", .ofOption .string e.dedupeKey),
    ("ordering_key", .ofOption .string e.orderingKey), ("ttl_ms", .ofOption .ofU32 e.ttlMs)]

def Command.fields (c : Command) : List (String × Json) :=
  [("command", .string c.command), ("correlation_id", .string c.correlationId),
    ("timeout_ms", .ofU32 c.timeoutMs), ("idempotency_key", .ofOption .string c.idempotencyKey),
    ("payload", c.payload), ("schema", .string c.schema)]

def Reply.fields (r : Reply) : List (String × Json) :=
  [("correlation_id", .string r.correlationId), ("status", .string r.status.name),
    ("payload", .ofOption id r.payload), ("error", .ofOption ReplyError.toValue r.error),
    ("server_time", .ofI64 r.serverTime)]

def State.fields (s : State) : List (String × Json) :=
  [("state_key", .string s.stateKey), ("name", .ofOption .string s.name), ("value", s.value),
    ("ttl_ms", .ofOption .ofU32 s.ttlMs), ("subject", .ofOption .string s.subject),
    ("updated_at", .ofI64 s.updatedAt)]

def Presence.fields (p : Presence) : List (String × Json) :=
  [("subject", .string p.subject), ("status", .string p.status),
    ("session_id", .ofOption .string p.sessionId),
    ("connection_id", .ofOption .string p.connectionId), ("ttl_ms", .ofOption .ofU32 p.ttlMs),
    ("metadata", .ofOption id p.metadata), ("updated_at", .ofI64 p.updatedAt)]

def Datagram.fields (d : Datagram) : List (String × Json) :=
  [("schema", .string d.schema), ("event", .ofOption .string d.event), ("payload", d.payload)]

def StreamSegment.fields (s : StreamSegment) : List (String × Json) :=
  [("stream_id", .string s.streamId), ("seq", .number (.posInt s.seq)),
    ("final_segment", .bool s.finalSegment), ("schema", .string s.schema), ("payload", s.payload)]

def Snapshot.fields (s : Snapshot) : List (String × Json) :=
  [("topic", .string s.topic), ("snapshot_id", .string s.snapshotId),
    ("base_offset", .ofI64 s.baseOffset), ("schema", .string s.schema), ("payload", s.payload),
    ("created_at", .ofI64 s.createdAt), ("expires_at", .ofOption .ofI64 s.expiresAt),
    ("checksum", .ofOption .string s.checksum)]

/-- The reply as it is read back. -/
def Reply.settled (r : Reply) : Reply := { r with payload := Json.nonNull r.payload }

/-- The presence as it is read back. -/
def Presence.settled (p : Presence) : Presence := { p with metadata := Json.nonNull p.metadata }

section Reading

variable {v : Json}

theorem Event.fromValue_of_has {e : Event} (h : v.Has e.fields) : fromValue v = some e := by
  simp only [Json.Has, fields, List.forall_mem_cons] at h
  obtain ⟨hevent, hid, hschema, hpayload, hdedupe, hordering, httl, -⟩ := h
  simp [fromValue, Json.field, hevent, hid, hschema, hpayload, Json.asStr,
    Json.optField_string hdedupe, Json.optField_string hordering, Json.optField_u32 httl]

theorem Command.fromValue_of_has {c : Command} (h : v.Has c.fields) : fromValue v = some c := by
  simp only [Json.Has, fields, List.forall_mem_cons] at h
  obtain ⟨hcommand, hid, htimeout, hkey, hpayload, hschema, -⟩ := h
  simp [fromValue, Json.field, hcommand, hid, htimeout, hpayload, hschema, Json.asStr, Json.ofU32,
    Json.asU32_toUInt64, Json.optField_string hkey]

theorem ReplyStatus.fromValue_name (s : ReplyStatus) : fromValue (.string s.name) = some s := by
  cases s <;> rfl

theorem ReplyError.fromValue_toValue (e : ReplyError) : fromValue e.toValue = some e := rfl

theorem Reply.fromValue_of_has {r : Reply} (h : v.Has r.fields) :
    fromValue v = some r.settled := by
  simp only [Json.Has, fields, List.forall_mem_cons] at h
  obtain ⟨hid, hstatus, hpayload, herror, htime, -⟩ := h
  have herror := Json.optField_ofOption herror ReplyError.fromValue_toValue fun _ => nofun
  simp [fromValue, Json.field, hid, hstatus, htime, Json.asStr, ReplyStatus.fromValue_name, herror,
    Json.asI64_ofI64, Json.optField_value hpayload, settled]

theorem State.fromValue_of_has {s : State} (h : v.Has s.fields) : fromValue v = some s := by
  simp only [Json.Has, fields, List.forall_mem_cons] at h
  obtain ⟨hkey, hname, hvalue, httl, hsubject, htime, -⟩ := h
  simp [fromValue, Json.field, hkey, hvalue, htime, Json.asStr, Json.asI64_ofI64,
    Json.optField_string hname, Json.optField_u32 httl, Json.optField_string hsubject]

theorem Presence.fromValue_of_has {p : Presence} (h : v.Has p.fields) :
    fromValue v = some p.settled := by
  simp only [Json.Has, fields, List.forall_mem_cons] at h
  obtain ⟨hsubject, hstatus, hsession, hconnection, httl, hmetadata, htime, -⟩ := h
  simp [fromValue, Json.field, hsubject, hstatus, htime, Json.asStr, Json.asI64_ofI64,
    Json.optField_string hsession, Json.optField_string hconnection, Json.optField_u32 httl,
    Json.optField_value hmetadata, settled]

theorem Datagram.fromValue_of_has {d : Datagram} (h : v.Has d.fields) : fromValue v = some d := by
  simp only [Json.Has, fields, List.forall_mem_cons] at h
  obtain ⟨hschema, hevent, hpayload, -⟩ := h
  simp [fromValue, Json.field, hschema, hpayload, Json.asStr, Json.optField_string hevent]

theorem StreamSegment.fromValue_of_has {s : StreamSegment} (h : v.Has s.fields) :
    fromValue v = some s := by
  simp only [Json.Has, fields, List.forall_mem_cons] at h
  obtain ⟨hid, hseq, hfinal, hschema, hpayload, -⟩ := h
  simp [fromValue, Json.field, hid, hseq, hfinal, hschema, hpayload, Json.asStr, Json.asU64,
    Json.asBool]

theorem Snapshot.fromValue_of_has {s : Snapshot} (h : v.Has s.fields) : fromValue v = some s := by
  simp only [Json.Has, fields, List.forall_mem_cons] at h
  obtain ⟨htopic, hid, hbase, hschema, hpayload, hcreated, hexpires, hchecksum, -⟩ := h
  simp [fromValue, Json.field, htopic, hid, hbase, hschema, hpayload, hcreated, Json.asStr,
    Json.asI64_ofI64, Json.optField_i64 hexpires, Json.optField_string hchecksum]

end Reading

/-- The types of bodies that have an encoder. -/
inductive BodyKind
  | event | command | reply | state | presence | datagram | stream | snapshot
  deriving DecidableEq, Repr

/-- The fields that `serde` knows of a type, in the order of its declaration. -/
def BodyKind.names : BodyKind → List String
  | event => ["event", "message_id", "schema", "payload", "dedupe_key", "ordering_key", "ttl_ms"]
  | command => ["command", "correlation_id", "timeout_ms", "idempotency_key", "payload", "schema"]
  | reply => ["correlation_id", "status", "payload", "error", "server_time"]
  | state => ["state_key", "name", "value", "ttl_ms", "subject", "updated_at"]
  | presence =>
    ["subject", "status", "session_id", "connection_id", "ttl_ms", "metadata", "updated_at"]
  | datagram => ["schema", "event", "payload"]
  | stream => ["stream_id", "seq", "final_segment", "schema", "payload"]
  | snapshot =>
    ["topic", "snapshot_id", "base_offset", "schema", "payload", "created_at", "expires_at",
      "checksum"]

/-- The fields of a type that hold any JSON value. -/
def BodyKind.values : BodyKind → List String
  | event | command | reply | datagram | stream | snapshot => ["payload"]
  | state => ["value"]
  | presence => ["metadata"]

/-- A member as the reader of a type takes it. -/
def BodyKind.member (k : BodyKind) (x : String × Json) : String × Json :=
  (x.1, if k.values.contains x.1 then x.2.asValue else x.2)

/-- The error in a reply is a record of its own. -/
def BodyKind.acceptsError (k : BodyKind) (members : List (String × Json)) : Bool :=
  match k with
  | reply =>
    match members.lookup "error" with
    | some (.object inner) => Json.once ["code", "message"] inner
    | _ => true
  | event | command | state | presence | datagram | stream | snapshot => true

/-- The derived reader of a type refuses a field it knows when it comes again. -/
def BodyKind.accepts (k : BodyKind) (members : List (String × Json)) : Bool :=
  Json.once k.names members && k.acceptsError members

/-- What `serde` reads a record from: an object, or the array of the fields in their order. -/
def BodyKind.record (k : BodyKind) : Json → Option Json
  | .object members =>
    if k.accepts members then some (.object (members.map k.member)) else none
  | .array xs =>
    if xs.length = k.names.length ∧ k.accepts (k.names.zip xs) then
      some (.object ((k.names.zip xs).map k.member))
    else none
  | .null | .bool _ | .number _ | .string _ => none

/-- Why a body is not encoded or decoded. -/
inductive BodyError
  | rejected (reason : String)
  | serde (text : String)
  deriving DecidableEq, Repr

/-- `serde_json::from_slice` as the reader of a record drives it: the tree of a text, with all the
members of an object in their order, and what is said of a tree that is not of the record's
shape. -/
structure SerdeReader where
  tree : Bytes → Except String Json
  mismatch : Json → String

section Codec

variable (J : SerdeJson) (R : SerdeReader)

/-- `serde_json::from_slice` for a record. -/
def SerdeReader.fromSliceAs {α : Type} (kind : BodyKind) (fromValue : Json → Option α)
    (bytes : Bytes) : Except BodyError α :=
  match R.tree bytes with
  | .error text => .error (.serde text)
  | .ok v =>
    match (kind.record v).bind fromValue with
    | some a => .ok a
    | none => .error (.serde (R.mismatch v))

def encodeEventBody (e : Event) : Except BodyError Bytes := .ok (J.toVec (.object e.fields))

def decodeEventBody (bytes : Bytes) : Except BodyError Event :=
  if bytes.isEmpty then .error (.rejected "empty event payload")
  else R.fromSliceAs .event Event.fromValue bytes

def encodeCommand (c : Command) : Except BodyError Bytes :=
  if c.correlationId.isEmpty then .error (.rejected "command requires correlation_id")
  else .ok (J.toVec (.object c.fields))

def decodeCommand (bytes : Bytes) : Except BodyError Command := do
  let c ← R.fromSliceAs .command Command.fromValue bytes
  if c.correlationId.isEmpty then .error (.rejected "command requires correlation_id")
  else .ok c

def encodeReply (r : Reply) : Except BodyError Bytes := .ok (J.toVec (.object r.fields))

def decodeReply : Bytes → Except BodyError Reply := R.fromSliceAs .reply Reply.fromValue

def encodeState (s : State) : Except BodyError Bytes := .ok (J.toVec (.object s.fields))

def decodeState : Bytes → Except BodyError State := R.fromSliceAs .state State.fromValue

def encodePresence (p : Presence) : Except BodyError Bytes := .ok (J.toVec (.object p.fields))

def decodePresence : Bytes → Except BodyError Presence :=
  R.fromSliceAs .presence Presence.fromValue

def encodeDatagram (d : Datagram) : Except BodyError Bytes := .ok (J.toVec (.object d.fields))

def decodeDatagram : Bytes → Except BodyError Datagram :=
  R.fromSliceAs .datagram Datagram.fromValue

def encodeStream (s : StreamSegment) : Except BodyError Bytes := .ok (J.toVec (.object s.fields))

def decodeStream : Bytes → Except BodyError StreamSegment :=
  R.fromSliceAs .stream StreamSegment.fromValue

def encodeSnapshot (s : Snapshot) : Except BodyError Bytes := .ok (J.toVec (.object s.fields))

def decodeSnapshot : Bytes → Except BodyError Snapshot :=
  R.fromSliceAs .snapshot Snapshot.fromValue

end Codec

inductive Body
  | event (e : Event)
  | command (c : Command)
  | reply (r : Reply)
  | state (s : State)
  | presence (p : Presence)
  | datagram (d : Datagram)
  | stream (s : StreamSegment)
  | snapshot (s : Snapshot)

namespace Body

def kind : Body → BodyKind
  | event _ => .event
  | command _ => .command
  | reply _ => .reply
  | state _ => .state
  | presence _ => .presence
  | datagram _ => .datagram
  | stream _ => .stream
  | snapshot _ => .snapshot

def fields : Body → List (String × Json)
  | event e => e.fields
  | command c => c.fields
  | reply r => r.fields
  | state s => s.fields
  | presence p => p.fields
  | datagram d => d.fields
  | stream s => s.fields
  | snapshot s => s.fields

def encode (J : SerdeJson) : Body → Except BodyError Bytes
  | event e => encodeEventBody J e
  | command c => encodeCommand J c
  | reply r => encodeReply J r
  | state s => encodeState J s
  | presence p => encodePresence J p
  | datagram d => encodeDatagram J d
  | stream s => encodeStream J s
  | snapshot s => encodeSnapshot J s

def decode (R : SerdeReader) (bytes : Bytes) : BodyKind → Except BodyError Body
  | .event => (decodeEventBody R bytes).map event
  | .command => (decodeCommand R bytes).map command
  | .reply => (decodeReply R bytes).map reply
  | .state => (decodeState R bytes).map state
  | .presence => (decodePresence R bytes).map presence
  | .datagram => (decodeDatagram R bytes).map datagram
  | .stream => (decodeStream R bytes).map stream
  | .snapshot => (decodeSnapshot R bytes).map snapshot

/-- The body as it is read back. -/
def settled : Body → Body
  | reply r => reply r.settled
  | presence p => presence p.settled
  | b => b

/-- The body is not a command without a correlation id. -/
def Addressed : Body → Prop
  | command c => c.correlationId ≠ ""
  | _ => True

/-- No optional value of the body is there and null. -/
def NoNull : Body → Prop
  | reply r => r.payload ≠ some .null
  | presence p => p.metadata ≠ some .null
  | _ => True

/-- The JSON values in the body repeat no key, as no `serde_json::Value` does. -/
def Valued (b : Body) : Prop := ∀ x ∈ b.fields, b.kind.member x = x

/-- A tree that `serde` reads the body from: an object with the fields of the body, each of them
once, in any order and next to any others, or the array of their values. -/
inductive ReadFrom (b : Body) : Json → Prop
  | object {members} (honce : Json.once b.kind.names members = true)
      (h : (Json.object (members.map b.kind.member)).Has b.fields) : ReadFrom b (.object members)
  | array {xs} (hlength : xs.length = b.kind.names.length)
      (h : (b.kind.names.zip xs).map b.kind.member = b.fields) : ReadFrom b (.array xs)

variable {J : SerdeJson} {R : SerdeReader} {b : Body} {bytes : Bytes} {v : Json}
  {members : List (String × Json)}

theorem map_fst_fields (b : Body) : b.fields.map Prod.fst = b.kind.names := by
  cases b <;> rfl

theorem nodup_names (k : BodyKind) : k.names.Nodup := by
  cases k <;> decide

theorem has_fields (b : Body) : (Json.object b.fields).Has b.fields :=
  Json.has_object (b.map_fst_fields ▸ nodup_names b.kind)

theorem lookup_map_member {k : BodyKind} {key : String} :
    (members.map k.member).lookup key =
      (members.lookup key).map fun x => (k.member (key, x)).2 := by
  induction members with
  | nil => rfl
  | cons x members ih =>
    rw [List.map_cons, List.lookup_cons, List.lookup_cons, ih]
    cases h : key == x.1 with
    | false => simp [BodyKind.member, h]
    | true =>
      obtain rfl := eq_of_beq h
      simp [BodyKind.member]

/-- With its fields once, the record of a body is accepted: there is nothing twice in the error of
a reply that was written. -/
theorem accepts_of_once (honce : Json.once b.kind.names members = true)
    (h : (Json.object (members.map b.kind.member)).Has b.fields) :
    b.kind.accepts members = true := by
  rw [BodyKind.accepts, honce, Bool.true_and]
  cases b with
  | reply r =>
    simp only [Json.Has, fields, Reply.fields, List.forall_mem_cons, kind, Json.get,
      lookup_map_member] at h
    obtain ⟨-, -, -, herror, -⟩ := h
    obtain ⟨x, hx, hmember⟩ := Option.map_eq_some_iff.mp herror
    have hsame : x = .ofOption ReplyError.toValue r.error := hmember
    rw [hsame] at hx
    change BodyKind.acceptsError .reply members = true
    rw [BodyKind.acceptsError, hx]
    cases r.error <;> rfl
  | _ => rfl

/-- Either way the reader of the fields sees an object that has them. -/
theorem ReadFrom.exists_object (h : b.ReadFrom v) :
    ∃ obj, b.kind.record v = some (.object obj) ∧ (Json.object obj).Has b.fields := by
  cases h with
  | object honce h => exact ⟨_, if_pos (accepts_of_once honce h), h⟩
  | @array xs hlength h =>
    have hhas : (Json.object ((b.kind.names.zip xs).map b.kind.member)).Has b.fields := by
      rw [h]
      exact b.has_fields
    have honce : Json.once b.kind.names (b.kind.names.zip xs) = true :=
      Json.once_of_nodup (List.map_fst_zip hlength.ge) (nodup_names b.kind)
    exact ⟨_, if_pos ⟨hlength, accepts_of_once honce hhas⟩, hhas⟩

theorem readFrom_fields (h : b.Valued) : b.ReadFrom (.object b.fields) := by
  have hsame : b.fields.map b.kind.member = b.fields :=
    (List.map_congr_left h).trans (List.map_id _)
  refine .object (Json.once_of_nodup b.map_fst_fields (nodup_names b.kind)) ?_
  rw [hsame]
  exact b.has_fields

theorem fromSliceAs_eq {α : Type} {k : BodyKind} {fromValue : Json → Option α} {a : α}
    {obj : List (String × Json)} (hread : R.tree bytes = .ok v)
    (hv : k.record v = some (.object obj)) (h : fromValue (.object obj) = some a) :
    R.fromSliceAs k fromValue bytes = .ok a := by
  simp [SerdeReader.fromSliceAs, hread, hv, h]

/-- A field that comes again is an error. -/
theorem fromSliceAs_of_not_once {α : Type} {k : BodyKind} {fromValue : Json → Option α}
    (hread : R.tree bytes = .ok (.object members)) (h : Json.once k.names members = false) :
    R.fromSliceAs k fromValue bytes = .error (.serde (R.mismatch (.object members))) := by
  have hrecord : k.record (.object members) = none := by
    rw [BodyKind.record, if_neg (by simp [BodyKind.accepts, h])]
  simp [SerdeReader.fromSliceAs, hread, hrecord]

theorem decode_of_not_once {k : BodyKind} (hread : R.tree bytes = .ok (.object members))
    (hbytes : bytes ≠ []) (h : Json.once k.names members = false) :
    decode R bytes k = .error (.serde (R.mismatch (.object members))) := by
  cases k with
  | event =>
    have hdecode : decodeEventBody R bytes = .error (.serde (R.mismatch (.object members))) := by
      rw [decodeEventBody, if_neg (by simpa using hbytes)]
      exact fromSliceAs_of_not_once hread h
    exact congrArg (Except.map event) hdecode
  | command =>
    have hdecode : decodeCommand R bytes = .error (.serde (R.mismatch (.object members))) := by
      rw [decodeCommand, fromSliceAs_of_not_once hread h]
      rfl
    exact congrArg (Except.map command) hdecode
  | reply => exact congrArg (Except.map reply) (fromSliceAs_of_not_once hread h)
  | state => exact congrArg (Except.map state) (fromSliceAs_of_not_once hread h)
  | presence => exact congrArg (Except.map presence) (fromSliceAs_of_not_once hread h)
  | datagram => exact congrArg (Except.map datagram) (fromSliceAs_of_not_once hread h)
  | stream => exact congrArg (Except.map stream) (fromSliceAs_of_not_once hread h)
  | snapshot => exact congrArg (Except.map snapshot) (fromSliceAs_of_not_once hread h)

theorem decodeCommand_eq {c : Command} {obj : List (String × Json)}
    (hread : R.tree bytes = .ok v)
    (hv : BodyKind.command.record v = some (.object obj))
    (h : (Json.object obj).Has c.fields) :
    decodeCommand R bytes =
      if c.correlationId.isEmpty then .error (.rejected "command requires correlation_id")
      else .ok c := by
  rw [decodeCommand, fromSliceAs_eq hread hv (Command.fromValue_of_has h)]
  rfl

theorem decode_of_readFrom (hread : R.tree bytes = .ok v) (hbytes : bytes ≠ [])
    (h : b.ReadFrom v) (hb : b.Addressed) : decode R bytes b.kind = .ok b.settled := by
  obtain ⟨obj, hv, hhas⟩ := h.exists_object
  cases b with
  | event e =>
    have hdecode : decodeEventBody R bytes = .ok e := by
      rw [decodeEventBody, if_neg (by simpa using hbytes)]
      exact fromSliceAs_eq hread hv (Event.fromValue_of_has hhas)
    exact congrArg (Except.map event) hdecode
  | command c =>
    have hc : c.correlationId ≠ "" := hb
    have hdecode : decodeCommand R bytes = .ok c := by
      rw [decodeCommand_eq hread hv hhas, if_neg (by simpa using hc)]
    exact congrArg (Except.map command) hdecode
  | reply r =>
    exact congrArg (Except.map reply) (fromSliceAs_eq hread hv (Reply.fromValue_of_has hhas))
  | state s =>
    exact congrArg (Except.map state) (fromSliceAs_eq hread hv (State.fromValue_of_has hhas))
  | presence p =>
    exact congrArg (Except.map presence)
      (fromSliceAs_eq hread hv (Presence.fromValue_of_has hhas))
  | datagram d =>
    exact congrArg (Except.map datagram)
      (fromSliceAs_eq hread hv (Datagram.fromValue_of_has hhas))
  | stream s =>
    exact congrArg (Except.map stream)
      (fromSliceAs_eq hread hv (StreamSegment.fromValue_of_has hhas))
  | snapshot s =>
    exact congrArg (Except.map snapshot)
      (fromSliceAs_eq hread hv (Snapshot.fromValue_of_has hhas))

/-- A command without a correlation id is not taken, though it has the shape of one. -/
theorem decode_of_not_addressed (hread : R.tree bytes = .ok v) (h : b.ReadFrom v)
    (hb : ¬b.Addressed) :
    decode R bytes b.kind = .error (.rejected "command requires correlation_id") := by
  obtain ⟨obj, hv, hhas⟩ := h.exists_object
  cases b with
  | command c =>
    have hc : c.correlationId = "" := not_not.mp hb
    have hdecode : decodeCommand R bytes =
        .error (.rejected "command requires correlation_id") := by
      rw [decodeCommand_eq hread hv hhas, if_pos (by simp [hc])]
    exact congrArg (Except.map command) hdecode
  | _ => exact absurd trivial hb

theorem encode_of_addressed (hb : b.Addressed) :
    b.encode J = .ok (J.toVec (.object b.fields)) := by
  cases b with
  | command c =>
    have hc : c.correlationId ≠ "" := hb
    simp [encode, encodeCommand, hc, fields]
  | _ => rfl

theorem encode_of_not_addressed (hb : ¬b.Addressed) :
    b.encode J = .error (.rejected "command requires correlation_id") := by
  cases b with
  | command c =>
    have hc : c.correlationId = "" := not_not.mp hb
    simp [encode, encodeCommand, hc]
  | _ => exact absurd trivial hb

theorem nonNull_eq_self {o : Option Json} : Json.nonNull o = o ↔ o ≠ some .null := by
  rcases o with _ | x
  · simp [Json.nonNull]
  · cases x <;> simp [Json.nonNull]

theorem settled_eq_self : b.settled = b ↔ b.NoNull := by
  cases b with
  | reply r =>
    obtain ⟨id, status, payload, error, time⟩ := r
    simp [settled, Reply.settled, NoNull, nonNull_eq_self]
  | presence p =>
    obtain ⟨subject, status, session, connection, ttl, metadata, time⟩ := p
    simp [settled, Presence.settled, NoNull, nonNull_eq_self]
  | _ => exact iff_of_true rfl trivial

/-- Whatever body is encoded: a text that is read as an object with its fields, each of them once,
in any order and next to any others, or as the array of their values, decodes to the body, where
an optional value that was null is absent. Commands without a correlation id are refused on both
sides, and so is a text in which a field of the body comes twice. -/
theorem bodies_read_back (J : SerdeJson) (R : SerdeReader) (b : Body) (bytes : Bytes)
    (v : Json) (hread : R.tree bytes = .ok v) (hbytes : bytes ≠ []) (hv : b.ReadFrom v) :
    (b.Addressed → b.encode J = .ok (J.toVec (.object b.fields)) ∧
      decode R bytes b.kind = .ok b.settled) ∧
    (¬b.Addressed → b.encode J = .error (.rejected "command requires correlation_id") ∧
      decode R bytes b.kind = .error (.rejected "command requires correlation_id")) ∧
    (b.settled = b ↔ b.NoNull) ∧ (b.Valued → b.ReadFrom (.object b.fields)) ∧
    ∀ bytes members, bytes ≠ [] → R.tree bytes = .ok (.object members) →
      Json.once b.kind.names members = false →
      decode R bytes b.kind = .error (.serde (R.mismatch (.object members))) :=
  ⟨fun hb => ⟨encode_of_addressed hb, decode_of_readFrom hread hbytes hv hb⟩,
    fun hb => ⟨encode_of_not_addressed hb, decode_of_not_addressed hread hv hb⟩,
    settled_eq_self, readFrom_fields,
    fun _ _ hbytes hread honce => decode_of_not_once hread hbytes honce⟩

/-- A reply with a null payload, its fields in another order and a class before them, twice. -/
def shuffledReply : Json :=
  .object [("class", .string "reply"), ("class", .string "reply"), ("server_time", .ofI64 5),
    ("payload", .null), ("error", .null), ("status", .string "ok"),
    ("correlation_id", .string "c1")]

/-- A reader of that text only. -/
def shuffledReader : SerdeReader where
  tree := (SerdeJson.reading [shuffledReply]).fromSlice
  mismatch := fun _ => ""

theorem shuffled_reply_read_back :
    decode shuffledReader shuffledReply.text .reply = .ok (.reply ⟨"c1", .ok, none, none, 5⟩) := by
  have hhas : (Json.object [("class", .string "reply"), ("class", .string "reply"),
      ("server_time", .ofI64 5), ("payload", .null), ("error", .null), ("status", .string "ok"),
      ("correlation_id", .string "c1")]).Has
        (Body.reply ⟨"c1", .ok, some .null, none, 5⟩).fields := by
    simp only [Json.Has, fields, Reply.fields, List.forall_mem_cons]
    exact ⟨rfl, rfl, rfl, rfl, rfl, by simp⟩
  exact ((bodies_read_back (.reading []) shuffledReader
    (.reply ⟨"c1", .ok, some .null, none, 5⟩) shuffledReply.text shuffledReply
    (SerdeJson.fromSlice_reading shuffledReply) (by decide +kernel) (.object rfl hhas)).1
    trivial).2

end Body

end Rifts
