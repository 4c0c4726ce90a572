import Mathlib.Logic.Basic

/-! The error hierarchy of `rifts-core`, one inductive type per rejection layer. -/
namespace Rifts

inductive FrameReject
  | protocolVersionUnsupported (client server : UInt16)
  | frameInvalid (reason : String)
  | codecUnsupported (reason : String)
  | payloadTooLarge (actual max : Nat)
  | requiredFieldMissing (field : String)
  deriving DecidableEq, Repr

inductive SessionReject
  | notFound (sessionId : String)
  | expired
  | closed
  | conflict (incoming current : UInt32)
  | idleTimeout
  deriving DecidableEq, Repr

inductive TopicReject
  | notFound (topic : String)
  | subscriberLimit (topic : String)
  | publisherLimit (topic : String)
  | invalidName (reason : String)
  deriving DecidableEq, Repr

inductive MessageReject
  | expired
  | tooLarge (actual max : Nat)
  deriving DecidableEq, Repr

inductive AuthReject
  | required
  | invalid (reason : String)
  | expired
  | revoked
  | denied (reason : String)
  deriving DecidableEq, Repr

inductive SystemReject
  | overloaded
  | internal (reason : String)
  deriving DecidableEq, Repr

/-- `other` stands for the wrapped I/O, codec and websocket errors, which the
modelled code only passes on. -/
inductive RiftError
  | frame (e : FrameReject)
  | session (e : SessionReject)
  | topic (e : TopicReject)
  | message (e : MessageReject)
  | auth (e : AuthReject)
  | system (e : SystemReject)
  | other (reason : String)
  deriving DecidableEq, Repr

end Rifts
