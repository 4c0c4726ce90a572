import Mathlib.Logic.Function.Basic
import Rifts.Core.Error
import Rifts.Core.Frame
import Rifts.Sync.Counter

/-! Topic names, profiles and the in-memory topic store. -/
namespace Rifts

/-- `char::is_control`: the general category Cc. -/
def isControl (c : Char) : Bool := c.toNat < 32 || (127 ≤ c.toNat && c.toNat < 160)

def validateName (name : String) : Except RiftError Unit :=
  let invalid (reason : String) := Except.error (RiftError.topic (.invalidName reason))
  if name = "" then invalid "empty topic"
  else if 256 < name.utf8ByteSize then
    invalid ("name too long: " ++ toString name.utf8ByteSize ++ " > 256")
  else if name.toList.head? = some '$' then
    invalid ("name starts with reserved '$' prefix: " ++ name)
  else if name.toList.any isControl then invalid "name contains control characters"
  else .ok ()

theorem ne_empty_of_validateName {name : String} (h : validateName name = .ok ()) :
    name ≠ "" := by
  rintro rfl
  cases h

theorem invalidName_of_validateName {name : String} {e : RiftError}
    (h : validateName name = .error e) : ∃ reason, e = .topic (.invalidName reason) := by
  simp only [validateName] at h
  split_ifs at h <;> cases h <;> exact ⟨_, rfl⟩

/-- Durations are in milliseconds. -/
inductive RetentionPolicy
  | none
  | ttl (ms : Nat)
  | count (n : Nat)
  | size (maxBytes : Nat)
  | durable
  | latest
  deriving DecidableEq, Repr

/-- The policies of a topic that the broker reads. -/
structure TopicProfile where
  retention : RetentionPolicy := .latest
  maxSubscribers : UInt64 := 10000
  maxPublishers : UInt64 := 10000
  snapshotEnabled : Bool := true
  snapshotTtl : Option Nat := none
  deriving DecidableEq, Repr

structure LogEntry where
  offset : Int64
  publisherSession : Option String
  messageId : String
  class_ : String
  event : Option String
  payload : Bytes
  timestamp : Int64
  appendedAt : Option Int64
  deriving DecidableEq, Repr

structure TopicEntry where
  name : String
  profile : TopicProfile
  subscriberCount : UInt64 := 0
  publisherCount : UInt64 := 0
  latestSnapshot : Option LogEntry := none
  deriving DecidableEq, Repr

/-- The compare-and-swap loop of `try_inc_subscriber` and `try_inc_publisher`: it
ends with the counter one up, or with a counter at its limit. -/
def tryInc (count limit : UInt64) : Option UInt64 :=
  if limit ≤ count then none else some (count + 1)

theorem toNat_of_tryInc {count limit next : UInt64} (h : tryInc count limit = some next) :
    next.toNat = count.toNat + 1 := by
  unfold tryInc at h
  split at h
  · cases h
  · next hlt =>
    cases h
    exact (BoundedCounter.toNat_add_one hlt).1

theorem tryInc_eq_none_iff {count limit : UInt64} :
    tryInc count limit = none ↔ limit.toNat ≤ count.toNat := by
  rw [← UInt64.le_iff_toNat_le, tryInc, ite_eq_left_iff]
  simp

/-- A loop nobody interferes with is a `tryInc`. -/
theorem attempt_solo (limit count : UInt64) : BoundedCounter.attempt limit count count false =
    match tryInc count limit with
    | none => .full
    | some n => .taken n := by
  unfold BoundedCounter.attempt tryInc
  split <;> simp [Atomic.compareExchangeWeak]

namespace TopicEntry

def tryIncSubscriber (e : TopicEntry) : Option TopicEntry :=
  (tryInc e.subscriberCount e.profile.maxSubscribers).map
    fun n => { e with subscriberCount := n }

def tryIncPublisher (e : TopicEntry) : Option TopicEntry :=
  (tryInc e.publisherCount e.profile.maxPublishers).map fun n => { e with publisherCount := n }

/-- `fetch_sub` wraps below zero. -/
def decSubscriber (e : TopicEntry) : TopicEntry :=
  { e with subscriberCount := e.subscriberCount - 1 }

def decPublisher (e : TopicEntry) : TopicEntry :=
  { e with publisherCount := e.publisherCount - 1 }

end TopicEntry

/-- The concurrent map from topic names to entries. -/
structure TopicStore where
  inner : String → Option TopicEntry

namespace TopicStore

def new : TopicStore := ⟨fun _ => none⟩

def get (st : TopicStore) (name : String) : Option TopicEntry := st.inner name

def put (st : TopicStore) (name : String) (e : TopicEntry) : TopicStore :=
  ⟨Function.update st.inner name (some e)⟩

def getOrCreate (st : TopicStore) (name : String) (profile : TopicProfile) :
    Except RiftError (TopicStore × TopicEntry) :=
  match validateName name with
  | .error e => .error e
  | .ok () =>
    match st.get name with
    | some e => .ok (st, e)
    | none => .ok (st.put name ⟨name, profile, 0, 0, none⟩, ⟨name, profile, 0, 0, none⟩)

/-- The entry goes, whoever still counts on it. -/
def remove (st : TopicStore) (name : String) : TopicStore × Option TopicEntry :=
  (⟨Function.update st.inner name none⟩, st.get name)

variable {st st' : TopicStore} {name other : String} {e : TopicEntry} {p : TopicProfile}

@[simp] theorem get_put_self : (st.put name e).get name = some e := Function.update_self ..

@[simp] theorem get_put_of_ne (h : other ≠ name) : (st.put name e).get other = st.get other :=
  Function.update_of_ne h ..

@[simp] theorem get_remove_self : (st.remove name).1.get name = none := Function.update_self ..

@[simp] theorem get_remove_of_ne (h : other ≠ name) :
    (st.remove name).1.get other = st.get other :=
  Function.update_of_ne h ..

theorem put_put {e' : TopicEntry} : (st.put name e).put name e' = st.put name e' := by
  simp [put]

theorem put_of_get (h : st.get name = some e) : st.put name e = st := by
  rw [put, ← h, get, Function.update_eq_self]

/-- The publisher slots taken on a topic; a topic without an entry has none. -/
def publishers (st : TopicStore) (name : String) : Nat :=
  ((st.get name).map fun e => e.publisherCount.toNat).getD 0

@[simp] theorem publishers_put_self : (st.put name e).publishers name = e.publisherCount.toNat := by
  simp [publishers]

@[simp] theorem publishers_put_of_ne (h : other ≠ name) :
    (st.put name e).publishers other = st.publishers other := by
  simp [publishers, h]

/-- The subscriber slots taken on a topic. -/
def subscribers (st : TopicStore) (name : String) : Nat :=
  ((st.get name).map fun e => e.subscriberCount.toNat).getD 0

@[simp] theorem subscribers_put_self :
    (st.put name e).subscribers name = e.subscriberCount.toNat := by
  simp [subscribers]

@[simp] theorem subscribers_put_of_ne (h : other ≠ name) :
    (st.put name e).subscribers other = st.subscribers other := by
  simp [subscribers, h]

theorem getOrCreate_ok (h : st.getOrCreate name p = .ok (st', e)) :
    (st.get name = some e ∧ st' = st) ∨
      (st.get name = none ∧ e = ⟨name, p, 0, 0, none⟩ ∧ st' = st.put name e) := by
  unfold getOrCreate at h
  split at h
  · cases h
  · split at h
    · next hg =>
      cases h
      exact .inl ⟨hg, rfl⟩
    · next hg =>
      cases h
      exact .inr ⟨hg, rfl, rfl⟩

theorem get_of_getOrCreate (h : st.getOrCreate name p = .ok (st', e)) : st'.get name = some e := by
  obtain ⟨hg, rfl⟩ | ⟨-, rfl, rfl⟩ := getOrCreate_ok h
  · exact hg
  · exact get_put_self

theorem get_getOrCreate_of_ne (h : st.getOrCreate name p = .ok (st', e)) (ho : other ≠ name) :
    st'.get other = st.get other := by
  obtain ⟨-, rfl⟩ | ⟨-, -, rfl⟩ := getOrCreate_ok h
  · rfl
  · exact get_put_of_ne ho

theorem publisherCount_of_getOrCreate (h : st.getOrCreate name p = .ok (st', e)) :
    e.publisherCount.toNat = st.publishers name := by
  obtain ⟨hg, -⟩ | ⟨hg, rfl, -⟩ := getOrCreate_ok h <;> simp [publishers, hg]

/-- Routing to a topic creates at most an entry without publishers. -/
theorem publishers_getOrCreate (h : st.getOrCreate name p = .ok (st', e)) :
    st'.publishers other = st.publishers other := by
  obtain ⟨-, rfl⟩ | ⟨hg, rfl, rfl⟩ := getOrCreate_ok h
  · rfl
  · by_cases ho : other = name
    · subst ho
      simp [publishers, hg]
    · rw [publishers_put_of_ne ho]

theorem subscribers_getOrCreate (h : st.getOrCreate name p = .ok (st', e)) :
    st'.subscribers other = st.subscribers other := by
  obtain ⟨-, rfl⟩ | ⟨hg, rfl, rfl⟩ := getOrCreate_ok h
  · rfl
  · by_cases ho : other = name
    · subst ho
      simp [subscribers, hg]
    · rw [subscribers_put_of_ne ho]

theorem subscriberCount_of_getOrCreate (h : st.getOrCreate name p = .ok (st', e)) :
    e.subscriberCount.toNat = st.subscribers name := by
  obtain ⟨hg, -⟩ | ⟨hg, rfl, -⟩ := getOrCreate_ok h <;> simp [subscribers, hg]

/-- The profile of a topic: its own, or the one it would be created with. -/
def profileOf (st : TopicStore) (p : TopicProfile) (name : String) : TopicProfile :=
  ((st.get name).map (·.profile)).getD p

theorem profileOf_put {e' : TopicEntry} (hg : st.get name = some e) (he : e'.profile = e.profile) :
    (st.put name e').profileOf p other = st.profileOf p other := by
  by_cases ho : other = name
  · subst ho
    simp [profileOf, hg, he]
  · simp [profileOf, ho]

theorem profileOf_getOrCreate (h : st.getOrCreate name p = .ok (st', e)) :
    st'.profileOf p other = st.profileOf p other := by
  obtain ⟨-, rfl⟩ | ⟨hg, rfl, rfl⟩ := getOrCreate_ok h
  · rfl
  · by_cases ho : other = name
    · subst ho
      simp [profileOf, hg]
    · simp [profileOf, ho]

theorem profile_of_getOrCreate (h : st.getOrCreate name p = .ok (st', e)) :
    e.profile = st.profileOf p name := by
  rw [← profileOf_getOrCreate h]
  simp [profileOf, get_of_getOrCreate h]

/-- No topic has more subscribers than its profile allows. -/
def WithinLimits (st : TopicStore) : Prop :=
  ∀ t e, st.get t = some e → e.subscriberCount ≤ e.profile.maxSubscribers

theorem withinLimits_put (h : st.WithinLimits) (he : e.subscriberCount ≤ e.profile.maxSubscribers) :
    (st.put name e).WithinLimits := by
  intro t e' hg
  by_cases ht : t = name
  · subst ht
    cases get_put_self.symm.trans hg
    exact he
  · rw [get_put_of_ne ht] at hg
    exact h t e' hg

theorem withinLimits_getOrCreate (h : st.getOrCreate name p = .ok (st', e)) (hw : st.WithinLimits) :
    st'.WithinLimits := by
  obtain ⟨-, rfl⟩ | ⟨-, rfl, rfl⟩ := getOrCreate_ok h
  · exact hw
  · exact withinLimits_put hw (UInt64.zero_le ..)

theorem getOrCreate_error {err : RiftError} (h : st.getOrCreate name p = .error err) :
    validateName name = .error err := by
  unfold getOrCreate at h
  split at h
  · next hv => cases h; exact hv
  · split at h <;> cases h

end TopicStore

end Rifts
