import ThresholdSigning.Duration
import ThresholdSigning.Member
import ThresholdSigning.Text.Parse

namespace ThresholdSigning

/-- Why an envelope could not be handed to the network, or nothing can be received. -/
inductive TransportError
  | sendFailed (recipient reason : String)
  | notConnected (member : MemberId)
  | alreadySubscribed (group : String) (member : MemberId)
  | channelClosed
deriving DecidableEq

namespace TransportError

def message : TransportError → String
  | sendFailed recipient reason => s!"failed to send message to {recipient}: {reason}"
  | notConnected member => s!"member {member.text} is not connected"
  | alreadySubscribed group member =>
    s!"member {member.text} is already subscribed to group {group}"
  | channelClosed => "internal channel closed"

end TransportError

/-- What a party answers when it does not accept a call. -/
inductive PartyError
  /-- The message is dropped and the computation goes on. -/
  | unexpectedMessage (sender : MemberId) (reason : String)
  /-- The computation cannot complete. -/
  | failure (reason : String)
deriving DecidableEq

namespace PartyError

def message : PartyError → String
  | unexpectedMessage sender reason => s!"unexpected message from {sender.text}: {reason}"
  | failure reason => reason

end PartyError

/-- Why bytes are no record of a given format. -/
inductive WireFault
  | truncated
  /-- A text announces more bytes than are left. -/
  | textTruncated
  /-- `valid` bytes are text; then `length` bytes are not, or the text ends inside a character. -/
  | notText (valid : Nat) (length : Option Nat)
  | notFlag (byte : UInt8)
  | leftOver
deriving DecidableEq

namespace WireFault

def message : WireFault → String
  | truncated => "io error: unexpected end of file"
  | textTruncated => "io error: "
  | notText valid (some length) =>
    s!"string is not valid utf8: invalid utf-8 sequence of {length} bytes from index {valid}"
  | notText valid none =>
    s!"string is not valid utf8: incomplete utf-8 byte sequence from index {valid}"
  | notFlag byte => s!"invalid u8 while decoding bool, expected 0 or 1, found {byte.toNat}"
  | leftOver => "Slice had bytes remaining after deserialization"

end WireFault

/-- The largest encoded envelope, in bytes. -/
def maxEnvelopeSize : Nat := 16 * 1024 * 1024

/-- Why a value has no encoding, or an encoding no value. -/
inductive CodecFault
  | wire (fault : WireFault)
  | envelopeTooLarge (size : Nat)
  | emptyInteger
  | leadingZero
  | pointLength (size : Nat)
  | pointEncoding
  | pointOffCurve
  | recordVersion (version : Nat)
  | negativeThreshold (threshold : Int)
  | thresholdTooWide (threshold : Nat)
  | other (reason : String)
deriving DecidableEq

namespace CodecFault

def message : CodecFault → String
  | wire fault => fault.message
  | envelopeTooLarge size => s!"envelope too large: {size} bytes (max {maxEnvelopeSize})"
  | emptyInteger => "empty integer encoding"
  | leadingZero => "integer encoding has a leading zero byte"
  | pointLength size => s!"curve point should be 65 bytes but got: [{size}]"
  | pointEncoding => "invalid curve point: elliptic curve point encoding error"
  | pointOffCurve => "curve point is not on secp256k1"
  | recordVersion version => s!"unsupported signer record version [{version}]"
  | negativeThreshold threshold => s!"negative dishonest threshold [{threshold}]"
  | thresholdTooWide threshold => s!"dishonest threshold [{threshold}] does not fit the record"
  | other reason => reason

end CodecFault

/-- Why an envelope or a recipient is refused. -/
inductive Rejection
  | notAPeer (recipient : MemberId) (group : String)
  | otherGroup (group : String)
  | notAMember (sender : MemberId)
  | fromLocalMember
  | unknownTag (tag : String)
  | claims (claimed sender : MemberId)
  | duplicate
  | byParty (sender : MemberId) (reason : String)
  | other (reason : String)
deriving DecidableEq

namespace Rejection

def message : Rejection → String
  | notAPeer recipient group => s!"recipient [{recipient.text}] is not a peer in group [{group}]"
  | otherGroup group => s!"envelope addressed to group [{group}]"
  | notAMember sender => s!"sender [{sender.text}] is not a group member"
  | fromLocalMember => "envelope from the local member"
  | unknownTag tag => s!"unknown message type [{tag}]"
  | claims claimed sender =>
    s!"envelope claims sender [{claimed.text}] but came from [{sender.text}]"
  | duplicate => "duplicate protocol message"
  | byParty sender reason => s!"from [{sender.text}]: {reason}"
  | other reason => reason

end Rejection

/-- Why the cryptographic computation has no result. -/
inductive FailureCause
  | reported (reason : String)
  | unexpectedMessage (sender : MemberId) (reason : String)
  | unverifiedSignature
deriving DecidableEq

namespace FailureCause

def message : FailureCause → String
  | reported reason => reason
  | unexpectedMessage sender reason => (PartyError.unexpectedMessage sender reason).message
  | unverifiedSignature => "signature does not verify against the group public key"

end FailureCause

/-- What a party reported, taken as the end of the computation. -/
def PartyError.cause : PartyError → FailureCause
  | unexpectedMessage sender reason => .unexpectedMessage sender reason
  | failure reason => .reported reason

/-- Why a setting is refused. -/
inductive SettingFault
  | badNumber (name : String) (fault : NumberFault)
  | badFlag (name : String)
  | notPositive (name : String)
  | foreignTransport (transport member : MemberId)
  | other (reason : String)
deriving DecidableEq

namespace SettingFault

def message : SettingFault → String
  | badNumber name fault => s!"invalid {name}: {fault.message}"
  | badFlag name => s!"invalid {name}: provided string was not `true` or `false`"
  | notPositive name => s!"{name} must be greater than zero"
  | foreignTransport transport member =>
    s!"transport sends as [{transport.text}] but the local member is [{member.text}]"
  | other reason => reason

end SettingFault

/-- What ends an execution without a result. Nothing is tried again. -/
inductive Error
  | invalidGroupSize (size : Nat)
  | thresholdTooLarge (size threshold : Nat)
  | duplicateMember (member : MemberId)
  | memberNotInGroup (member : MemberId)
  | missingPreParams
  | joinTimeout (missing : List MemberId)
  | transport (error : TransportError)
  | unexpectedMessage (rejection : Rejection)
  | protocolFailure (cause : FailureCause)
  | invalidDigestLength (expected actual : Nat)
  | keyGenerationTimeout (timeout : Duration)
  | signingTimeout (timeout : Duration)
  | preParamsTimeout (timeout : Duration)
  | codec (fault : CodecFault)
  | setting (fault : SettingFault)
deriving DecidableEq

inductive Category
  | configuration
  | synchronization
  | transport
  | protocol
  | precondition
  | timeout
deriving DecidableEq

namespace Error

def message : Error → String
  | invalidGroupSize size => s!"group should have at least 2 members but got: [{size}]"
  | thresholdTooLarge size threshold =>
    s!"group size [{size}] should be greater than dishonest threshold [{threshold}]"
  | duplicateMember member => s!"member [{member.text}] is listed more than once in the group"
  | memberNotInGroup member => s!"member [{member.text}] is not part of the group"
  | missingPreParams => "pre-parameters are required but were not provided"
  | joinTimeout missing =>
    s!"join timed out waiting for members: {MemberId.debugList missing}"
  | transport error => s!"transport error: {error.message}"
  | unexpectedMessage rejection => s!"unexpected message: {rejection.message}"
  | protocolFailure cause => s!"protocol failure: {cause.message}"
  | invalidDigestLength expected actual =>
    s!"digest should be {expected} bytes long but got: [{actual}]"
  | keyGenerationTimeout timeout => s!"key generation timed out after {timeout.text}"
  | signingTimeout timeout => s!"signing timed out after {timeout.text}"
  | preParamsTimeout timeout => s!"pre-parameters generation timed out after {timeout.text}"
  | codec fault => s!"codec error: {fault.message}"
  | setting fault => s!"configuration error: {fault.message}"

def category : Error → Category
  | invalidGroupSize _ => .configuration
  | thresholdTooLarge _ _ => .configuration
  | duplicateMember _ => .configuration
  | memberNotInGroup _ => .configuration
  | missingPreParams => .configuration
  | setting _ => .configuration
  | joinTimeout _ => .synchronization
  | transport _ => .transport
  | unexpectedMessage _ => .protocol
  | protocolFailure _ => .protocol
  | codec _ => .protocol
  | invalidDigestLength _ _ => .precondition
  | keyGenerationTimeout _ => .timeout
  | signingTimeout _ => .timeout
  | preParamsTimeout _ => .timeout

def isTimeout (e : Error) : Bool :=
  e.category = .timeout || e.category = .synchronization

/-- A party's refusal of a message stays a refusal; its failure is the computation's. -/
def ofParty : PartyError → Error
  | .unexpectedMessage sender reason => .unexpectedMessage (.byParty sender reason)
  | .failure reason => .protocolFailure (.reported reason)

end Error

end ThresholdSigning
