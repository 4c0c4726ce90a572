import Rifts.Bytes.Text
import Rifts.Storage.RetentionBound
import Rifts.Storage.Snapshot

/-! Snapshots in Redis hashes, whose keys live for a number of seconds. -/
namespace Rifts

/-- A hash of the server, with the time it lives to if it does not live for ever. -/
structure RedisHash where
  fields : String → Option String
  deadline : Option ℤ

def RedisHash.write (h : RedisHash) (values : List (String × String)) : String → Option String :=
  values.foldl (fun fields x => Function.update fields x.1 (some x.2)) h.fields

abbrev RedisHashes := String → Option RedisHash

namespace RedisHashes

variable (hashes : RedisHashes) (now : ℤ) (key : String)

/-- The hash of a key that has not expired. -/
def live : Option RedisHash := (hashes key).filter fun h => h.deadline.all fun t => now ≤ t

/-- `HSET key field value ...`: the time to live stays as it is. -/
def hset (values : List (String × String)) : RedisHashes :=
  let h := (live hashes now key).getD ⟨fun _ => none, none⟩
  Function.update hashes key (some { h with fields := h.write values })

/-- `EXPIRE key secs`. -/
def expire (secs : Nat) : RedisHashes :=
  match live hashes now key with
  | none => hashes
  | some h => Function.update hashes key (some { h with deadline := some (now + 1000 * secs) })

/-- `HMGET key field ...`, as a list of texts: a field that is not there is an error. -/
def hmget (names : List String) : Option (List String) :=
  names.mapM fun name => (live hashes now key).bind fun h => h.fields name

/-- `DEL key`. -/
def del : RedisHashes := Function.update hashes key none

end RedisHashes

/-- A request to the snapshot store, with the time it is made at. -/
inductive RedisSnapshotCall
  | capture (now : Int64) (topic : String) (store : TopicSpace) (ttl : Option Nat)
  | get (now : Int64) (topic : String)
  | remove (now : Int64) (topic : String)

def RedisSnapshotCall.now : RedisSnapshotCall → Int64
  | capture now .. | get now _ | remove now _ => now

namespace RedisSnapshot

open Text

def snapshotKey (pre topic : String) : String := RedisPool.topicKey pre "snapshot" topic

/-- The snapshot that `capture` stores: the last entry of the topic's log. -/
def snapshotOf (now : Int64) (topic : String) (store : TopicSpace) (ttl : Option Nat) :
    Option StoredSnapshot :=
  ((store.inner topic).bind fun x => x.2.getLast?).map (.ofEntry now topic ttl)

/-- The fields of a snapshot. -/
def record (snap : StoredSnapshot) : List (String × String) :=
  [("snapshot_id", snap.snapshotId), ("topic", snap.topic),
    ("base_offset", toString snap.baseOffset.toInt), ("payload", hexEncode snap.payload),
    ("created_at", toString snap.createdAt.toInt),
    ("expires_at", (snap.expiresAt.map fun e => toString e.toInt).getD "")]

/-- The key is given whole seconds, and none when there is no `ttl`. -/
def capture (pre : String) (hashes : RedisHashes) (now : Int64) (topic : String)
    (store : TopicSpace) (ttl : Option Nat) : RedisHashes × Option StoredSnapshot :=
  match snapshotOf now topic store ttl with
  | none => (hashes, none)
  | some snap =>
    let key := snapshotKey pre topic
    let hashes := hashes.hset now.toInt key (record snap)
    (match ttl with
      | some ms => hashes.expire now.toInt key (max (ms / 1000) 1)
      | none => hashes, some snap)

def get (pre : String) (hashes : RedisHashes) (now : Int64) (topic : String) :
    Option StoredSnapshot :=
  match hashes.hmget now.toInt (snapshotKey pre topic)
      ["snapshot_id", "topic", "base_offset", "payload", "created_at", "expires_at"] with
  | some [snapshotId, topic, base, payload, created, expires] =>
    if snapshotId = "" then none
    else
      let expiresAt := if expires = "" then none else parseInt64 expires
      if expiresAt.any fun e => e < now then none
      else some { snapshotId, topic, baseOffset := (parseInt64 base).getD 0
                  payload := hexDecode payload, createdAt := (parseInt64 created).getD 0
                  expiresAt }
  | _ => none

def remove (pre : String) (hashes : RedisHashes) (topic : String) : RedisHashes :=
  hashes.del (snapshotKey pre topic)

def serve (pre : String) (hashes : RedisHashes) :
    RedisSnapshotCall → RedisHashes × Option StoredSnapshot
  | .capture now topic store ttl => capture pre hashes now topic store ttl
  | .get now topic => (hashes, get pre hashes now topic)
  | .remove _ topic => (remove pre hashes topic, none)

end RedisSnapshot

/-- What a snapshot store is for: the latest snapshot of each topic, up to the time it
expires at. -/
abbrev LatestSnapshots := String → Option StoredSnapshot

def LatestSnapshots.serve (latest : LatestSnapshots) :
    RedisSnapshotCall → LatestSnapshots × Option StoredSnapshot
  | .capture now topic store ttl =>
    match RedisSnapshot.snapshotOf now topic store ttl with
    | none => (latest, none)
    | some snap => (Function.update latest topic (some snap), some snap)
  | .get now topic => (latest, (latest topic).filter (SledSnapshot.unexpired now))
  | .remove _ topic => (Function.update latest topic none, none)

namespace RedisSnapshot

open Text Transition

/-- A capture that stores something is for at most a second or for whole seconds; one
without a time to live does not find a key that has one. -/
def renewed (pre : String) (hashes : RedisHashes) : RedisSnapshotCall → Prop
  | .capture now topic store ttl => ((store.inner topic).bind fun x => x.2.getLast?).isSome →
      match ttl with
      | some ms => ms ≤ 1000 ∨ 1000 ∣ ms
      | none => (hashes.live now.toInt (snapshotKey pre topic)).all fun h => h.deadline.isNone
  | .get .. | .remove .. => True

/-- A hash that holds a snapshot, and from a time on lives as long as the snapshot. -/
structure Keeps (now : Int64) (snap : StoredSnapshot) (h : RedisHash) : Prop where
  fields : ∀ x ∈ record snap, h.fields x.1 = some x.2
  named : snap.snapshotId ≠ ""
  lasts : ∀ t, now ≤ t → SledSnapshot.unexpired t snap →
    (h.deadline.all fun d => t.toInt ≤ d) = true

/-- The keys of the topics hold their latest snapshots. -/
def Tracks (pre : String) (now : Int64) (hashes : RedisHashes) (latest : LatestSnapshots) : Prop :=
  ∀ topic, match latest topic with
    | none => hashes (snapshotKey pre topic) = none
    | some snap => ∃ h, hashes (snapshotKey pre topic) = some h ∧ Keeps now snap h

variable {pre topic t : String} {hashes : RedisHashes} {latest : LatestSnapshots}
  {now now' : Int64} {snap : StoredSnapshot} {h : RedisHash} {store : TopicSpace}
  {ttl : Option Nat} {calls : List RedisSnapshotCall}

theorem snapshotKey_inj : snapshotKey pre t = snapshotKey pre topic ↔ t = topic := by
  simp [snapshotKey, RedisPool.topicKey]

theorem Keeps.later (hk : Keeps now snap h) (hle : now ≤ now') : Keeps now' snap h :=
  ⟨hk.fields, hk.named, fun t ht => hk.lasts t (Int64.le_trans hle ht)⟩

theorem Tracks.later (ht : Tracks pre now hashes latest) (hle : now ≤ now') :
    Tracks pre now' hashes latest := by
  intro topic
  have htopic := ht topic
  split at htopic
  · exact htopic
  · obtain ⟨h, hh, hk⟩ := htopic
    exact ⟨h, hh, hk.later hle⟩

/-- The text of an expiry is read back, the empty text as none. -/
theorem parse_expiresAt (e : Option Int64) :
    (if (e.map fun x => toString x.toInt).getD "" = "" then none
      else parseInt64 ((e.map fun x => toString x.toInt).getD "")) = e := by
  cases e with
  | none => rfl
  | some n =>
    have hne : toString n.toInt ≠ "" := by
      intro hempty
      have hparse := parseInt64_toString n
      rw [hempty] at hparse
      cases hparse
    rw [Option.map_some, Option.getD_some, if_neg hne, parseInt64_toString]

theorem any_lt_eq_not_unexpired (now : Int64) (snap : StoredSnapshot) :
    (snap.expiresAt.any fun e => decide (e < now)) = !SledSnapshot.unexpired now snap := by
  cases h : snap.expiresAt with
  | none => simp [SledSnapshot.unexpired, h]
  | some e => simp [SledSnapshot.unexpired, h, ← Int64.not_le]

/-- A hash that is live gives back the snapshot it holds, unless that has expired. -/
theorem get_of_live (hk : Keeps now' snap h)
    (hlive : hashes.live now.toInt (snapshotKey pre topic) = some h) :
    get pre hashes now topic = (some snap).filter (SledSnapshot.unexpired now) := by
  have hread : hashes.hmget now.toInt (snapshotKey pre topic)
      ["snapshot_id", "topic", "base_offset", "payload", "created_at", "expires_at"] =
      some ((record snap).map Prod.snd) := by
    have hf := hk.fields
    simp only [record, List.forall_mem_cons] at hf
    simp [RedisHashes.hmget, hlive, hf, record]
  rw [get, hread]
  simp only [record, List.map_cons, List.map_nil, if_neg hk.named, parse_expiresAt,
    parseInt64_toString, Option.getD_some, hexDecode_hexEncode, any_lt_eq_not_unexpired]
  cases hu : SledSnapshot.unexpired now snap <;> simp [hu, Option.filter]

theorem get_of_tracks (ht : Tracks pre now hashes latest) :
    get pre hashes now topic = (latest topic).filter (SledSnapshot.unexpired now) := by
  have htopic := ht topic
  split at htopic
  · next hnone =>
    have hdead : hashes.live now.toInt (snapshotKey pre topic) = none := by
      simp [RedisHashes.live, htopic]
    simp [get, RedisHashes.hmget, hdead, hnone]
  · next snap hsnap =>
    obtain ⟨h, hh, hk⟩ := htopic
    rw [hsnap]
    cases halive : h.deadline.all fun d => decide (now.toInt ≤ d) with
    | true =>
      refine get_of_live hk ?_
      simp [RedisHashes.live, hh, Option.filter, halive]
    | false =>
      have hexpired : SledSnapshot.unexpired now snap = false := by
        by_contra hne
        have := hk.lasts now (Int64.le_refl _) (by simpa using hne)
        simp [halive] at this
      have hdead : hashes.live now.toInt (snapshotKey pre topic) = none := by
        simp [RedisHashes.live, hh, Option.filter, halive]
      simp [get, RedisHashes.hmget, hdead, Option.filter, hexpired]

theorem toInt_add_ofNat_le (now : Int64) (ms : Nat) :
    (now + Int64.ofNat ms).toInt ≤ now.toInt + ms := by
  have hlo := now.le_toInt
  have hsum : (now + Int64.ofNat ms).toInt = (now.toInt + ms).bmod (2 ^ 64) := by
    rw [Int64.toInt_add, Int64.toInt_ofNat']
    exact Int.add_bmod_bmod
  rw [hsum, Int.bmod_def]
  split <;> omega

/-- The hash that `HSET` leaves: its time to live is that of the hash it found. -/
theorem hset_eq (hashes : RedisHashes) (now : Int64) (values : List (String × String))
    (key : String) :
    ∃ h₀ : RedisHash, hashes.hset now.toInt key values =
        Function.update hashes key (some ⟨h₀.write values, h₀.deadline⟩) ∧
      (h₀.deadline.all fun d => decide (now.toInt ≤ d)) = true ∧
      ((hashes.live now.toInt key).all (fun h => h.deadline.isNone) → h₀.deadline = none) := by
  cases hlive : hashes.live now.toInt key with
  | none => exact ⟨⟨fun _ => none, none⟩, by simp [RedisHashes.hset, hlive], rfl, fun _ => rfl⟩
  | some h =>
    obtain ⟨-, halive⟩ := Option.filter_eq_some_iff.mp hlive
    refine ⟨h, by simp [RedisHashes.hset, hlive], halive, ?_⟩
    intro hnone
    simpa using hnone

theorem write_record (h : RedisHash) :
    ∀ x ∈ record snap, h.write (record snap) x.1 = some x.2 := by
  simp [record, RedisHash.write, Function.update]

theorem snapshotId_ne_empty (hsnap : snapshotOf now topic store ttl = some snap) :
    snap.snapshotId ≠ "" := by
  obtain ⟨latest, -, rfl⟩ := Option.map_eq_some_iff.mp hsnap
  simp [StoredSnapshot.ofEntry]

/-- A capture keeps the snapshot for as long as it is to live. -/
theorem keeps_capture (hsnap : snapshotOf now topic store ttl = some snap)
    (hok : renewed pre hashes (.capture now topic store ttl)) :
    ∃ h, (capture pre hashes now topic store ttl).1 =
      Function.update hashes (snapshotKey pre topic) (some h) ∧ Keeps now snap h := by
  have hnamed := snapshotId_ne_empty hsnap
  have hexpires : snap.expiresAt = ttl.map fun ms => now + Int64.ofNat ms := by
    obtain ⟨latest, -, rfl⟩ := Option.map_eq_some_iff.mp hsnap
    rfl
  have hcond := hok (by
    obtain ⟨latest, hlatest, -⟩ := Option.map_eq_some_iff.mp hsnap
    rw [hlatest]
    rfl)
  obtain ⟨h₀, hset, halive, hforever⟩ :=
    hset_eq hashes now (record snap) (snapshotKey pre topic)
  simp only [capture, hsnap, hset]
  cases ttl with
  | none =>
    refine ⟨_, rfl, write_record h₀, hnamed, ?_⟩
    intro t _ _
    rw [hforever hcond]
    rfl
  | some ms =>
    have hlive : RedisHashes.live (Function.update hashes (snapshotKey pre topic)
        (some ⟨h₀.write (record snap), h₀.deadline⟩)) now.toInt (snapshotKey pre topic) =
        some ⟨h₀.write (record snap), h₀.deadline⟩ := by
      simp [RedisHashes.live, Option.filter, halive]
    refine ⟨⟨h₀.write (record snap), some (now.toInt + 1000 * (max (ms / 1000) 1 : Nat))⟩, ?_,
      write_record h₀, hnamed, ?_⟩
    · simp [RedisHashes.expire, hlive]
    · intro t _ hunexpired
      have hle : t ≤ now + Int64.ofNat ms := by
        simpa [SledSnapshot.unexpired, hexpires] using hunexpired
      have hbound := toInt_add_ofNat_le now ms
      have hint := Int64.le_iff_toInt_le.mp hle
      simp only [Option.all_some, decide_eq_true_eq]
      omega

/-- Every request keeps the keys in step with what they are for. -/
theorem tracks_serve (ht : Tracks pre now hashes latest) (c : RedisSnapshotCall)
    (hle : now ≤ c.now) (hok : renewed pre hashes c) :
    Tracks pre c.now (serve pre hashes c).1 (latest.serve c).1 ∧
      (serve pre hashes c).2 = (latest.serve c).2 := by
  have hnow := ht.later hle
  cases c with
  | get now' topic => exact ⟨hnow, get_of_tracks hnow⟩
  | remove now' topic =>
    refine ⟨?_, rfl⟩
    intro t
    by_cases htopic : t = topic
    · subst htopic
      simp [LatestSnapshots.serve, serve, remove, RedisHashes.del]
    · have hkey : snapshotKey pre t ≠ snapshotKey pre topic := fun h =>
        htopic (snapshotKey_inj.mp h)
      simpa only [LatestSnapshots.serve, serve, remove, RedisHashes.del,
        Function.update_of_ne htopic, Function.update_of_ne hkey] using hnow t
  | capture now' topic store ttl =>
    simp only [LatestSnapshots.serve, serve]
    cases hsnap : snapshotOf now' topic store ttl with
    | none =>
      simp only [capture, hsnap, and_true]
      exact hnow
    | some snap =>
      obtain ⟨h, hhashes, hk⟩ := keeps_capture hsnap hok
      refine ⟨?_, by simp only [capture, hsnap]⟩
      rw [hhashes]
      intro t
      by_cases htopic : t = topic
      · subst htopic
        simp only [Function.update_self]
        exact ⟨h, rfl, hk⟩
      · have hkey : snapshotKey pre t ≠ snapshotKey pre topic := fun h =>
          htopic (snapshotKey_inj.mp h)
        simpa only [Function.update_of_ne htopic, Function.update_of_ne hkey] using hnow t

theorem answers_of_tracks (ht : Tracks pre now hashes latest)
    (htime : (now :: calls.map RedisSnapshotCall.now).Pairwise (· ≤ ·))
    (hok : Admits (serve pre) (renewed pre) hashes calls) :
    answers (serve pre) hashes calls = answers LatestSnapshots.serve latest calls := by
  induction calls generalizing now hashes latest with
  | nil => rfl
  | cons c calls ih =>
    obtain ⟨hfirst, hrest⟩ := List.pairwise_cons.mp htime
    obtain ⟨hc, hok⟩ := admits_cons hok
    obtain ⟨ht', hanswer⟩ := tracks_serve ht c (hfirst _ List.mem_cons_self) hc
    rw [answers, answers, hanswer, ih ht' hrest hok]

/-- For captures, reads and removals at nondecreasing times on any topics, in which every
capture is for at most a second or for whole seconds, or is without a time to live and
does not find one, the store answers every request with the latest snapshot of the topic
up to its expiry, and with none after it. -/
theorem redis_snapshots_live (pre : String) (calls : List RedisSnapshotCall)
    (htime : (calls.map RedisSnapshotCall.now).Pairwise (· ≤ ·))
    (hok : Admits (serve pre) (renewed pre) (fun _ => none) calls) :
    answers (serve pre) (fun _ => none) calls =
      answers LatestSnapshots.serve (fun _ => none) calls := by
  cases calls with
  | nil => rfl
  | cons c calls =>
    have hnew : Tracks pre c.now (fun _ => none) (fun _ => none) := fun _ => rfl
    refine answers_of_tracks hnew (List.pairwise_cons.mpr ⟨?_, htime⟩) hok
    intro t hmem
    rcases List.mem_cons.mp hmem with rfl | hlater
    · exact Int64.le_refl _
    · exact (List.pairwise_cons.mp htime).1 t hlater

/-- A topic "t" whose log ends with an entry at offset 3. -/
def oneTopic : TopicSpace where
  inner := fun t => if t = "t" then some ({ name := "t", profile := {} },
    [⟨3, none, "m", "event", none, [1, 255], 0, none⟩]) else none

/-- A snapshot for two seconds and, after it has expired, one for ever. -/
def twoLives : List RedisSnapshotCall :=
  [.capture 0 "t" oneTopic (some 2000), .get 2000 "t", .get 2001 "t",
    .capture 3000 "t" oneTopic none, .get 9000 "t"]

theorem two_lives_are_kept :
    answers (serve "rift") (fun _ => none) twoLives =
        answers LatestSnapshots.serve (fun _ => none) twoLives ∧
      (answers (serve "rift") (fun _ => none) twoLives)[1]? =
        some (some ⟨"snap-3", "t", 3, [1, 255], 0, some 2000⟩) ∧
      (answers (serve "rift") (fun _ => none) twoLives)[2]? = some none := by
  refine ⟨redis_snapshots_live "rift" twoLives (by decide) ?_, by decide +kernel,
    by decide +kernel⟩
  refine .cons (fun _ => .inr (by decide)) (.cons trivial (.cons trivial (.cons ?_
    (.cons trivial admits_nil))))
  intro _
  decide +kernel

/-- A snapshot for 1.5 seconds is gone after 1.2. One for ever that is captured over one
for a second is gone when that second is over. -/
theorem snapshots_die_early :
    answers (serve "rift") (fun _ => none)
        [.capture 0 "t" oneTopic (some 1500), .get 1200 "t"] =
      [some ⟨"snap-3", "t", 3, [1, 255], 0, some 1500⟩, none] ∧
    answers (serve "rift") (fun _ => none)
        [.capture 0 "t" oneTopic (some 1000), .capture 500 "t" oneTopic none, .get 1200 "t"] =
      [some ⟨"snap-3", "t", 3, [1, 255], 0, some 1000⟩,
        some ⟨"snap-3", "t", 3, [1, 255], 500, none⟩, none] := by
  constructor <;> decide +kernel

end RedisSnapshot

end Rifts
