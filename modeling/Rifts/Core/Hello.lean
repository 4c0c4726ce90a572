import Rifts.Core.Frame

/-! The hello message and protocol version of `rifts-core`. -/
namespace Rifts

inductive AuthMode
  | bearer | cookie | mtls | signedChallenge | anonymous
  deriving DecidableEq, Repr

/-- The hello fields the server reads. -/
structure Hello where
  protocol : String := ""
  version : UInt16 := 0
  clientId : Option String := none
  sessionId : Option String := none
  epoch : Option UInt32 := none
  codecs : List EncodingFormat := []
  authModes : List AuthMode := []
  lastOffsets : List (String × Int64) := []
  deriving DecidableEq, Repr

def protocolName : String := "rift"

def protocolMajor : UInt16 := 1

def protocolMinor : UInt16 := 0

def encodedVersion : UInt16 := (protocolMajor <<< 8) ||| protocolMinor

def negotiateMajor (clientMajor : UInt16) : Option UInt16 :=
  if 1 ≤ clientMajor ∧ clientMajor ≤ 1 then some clientMajor else none

end Rifts
