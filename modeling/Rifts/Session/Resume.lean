import Rifts.Core.Error
import Rifts.Session.Session

/-! The resume decision: offset comparison and the liveness test before it. -/
namespace Rifts

inductive ResumeDecision
  | fullResume | partialResume | replaying | snapshotRequired | coldStart | rejected
  deriving DecidableEq, Repr

def saturatingPred (head : Int64) : Int64 := if head = Int64.minValue then head else head - 1

/-- The loop of `decide` over the client's offsets, in the map's iteration order. -/
def decideLoop (topicOffsets : String → Option Int64) :
    List (String × Int64) → Bool → Bool → ResumeDecision
  | [], allWithin, anyBehind =>
    if anyBehind && allWithin then .replaying
    else if anyBehind then .partialResume
    else .fullResume
  | (topic, last) :: rest, allWithin, anyBehind =>
    match topicOffsets topic with
    | none => .snapshotRequired
    | some head =>
      if head < last then .rejected
      else decideLoop topicOffsets rest (allWithin && !(last < saturatingPred head))
        (anyBehind || last < head)

def decideResume (lastOffsets : List (String × Int64)) (topicOffsets : String → Option Int64) :
    ResumeDecision :=
  if lastOffsets.isEmpty then .coldStart else decideLoop topicOffsets lastOffsets true false

/-- `ResumeManager::evaluate`. -/
def evaluate (session : Session) (lastOffsets : List (String × Int64))
    (topicOffsets : String → Option Int64) : Except RiftError ResumeDecision :=
  if session.isAlive then .ok (decideResume lastOffsets topicOffsets)
  else .error (.session .expired)

theorem evaluate_of_alive {session : Session} {lastOffsets : List (String × Int64)}
    {topicOffsets : String → Option Int64} (h : session.state ≠ .closed) :
    evaluate session lastOffsets topicOffsets = .ok (decideResume lastOffsets topicOffsets) := by
  simp [evaluate, Session.isAlive, h]

end Rifts
