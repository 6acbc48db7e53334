import ThresholdSigning.Wire.Format

namespace ThresholdSigning

/-- One round message of the cryptographic protocol. -/
structure ProtocolMessage where
  sender : MemberId
  payload : ByteArray
  broadcast : Bool
deriving DecidableEq

/-- What members send each other during an execution: round messages, joins, and the announces
that answer joins. Each names its sender. -/
inductive Envelope
  | protocol (message : ProtocolMessage)
  | join (sender : MemberId)
  | announce (sender : MemberId)
deriving DecidableEq

namespace Envelope

inductive Kind
  | protocol
  | join
  | announce
deriving DecidableEq

def Kind.tag : Kind → String
  | protocol => "ecdsa/tss_message"
  | join => "ecdsa/join_message"
  | announce => "ecdsa/announce_message"

def Kind.ofTag? (tag : String) : Option Kind :=
  if tag = Kind.protocol.tag then some .protocol
  else if tag = Kind.join.tag then some .join
  else if tag = Kind.announce.tag then some .announce
  else none

def kind : Envelope → Kind
  | protocol _ => .protocol
  | join _ => .join
  | announce _ => .announce

/-- The sender named inside the envelope. -/
def sender : Envelope → MemberId
  | protocol message => message.sender
  | join sender => sender
  | announce sender => sender

def member : Format MemberId := Format.blob.map MemberId.mk MemberId.bytes

def message : Format ProtocolMessage :=
  (member.pair (Format.blob.pair Format.flag)).map
    (fun x => ⟨x.1, x.2.1, x.2.2⟩) (fun m => (m.sender, m.payload, m.broadcast))

/-- The body of an envelope without its tag; joins and announces have the same bodies. -/
def body : Envelope → ByteArray
  | protocol m => message.write m
  | join sender => member.write sender
  | announce sender => member.write sender

def ofBody (kind : Kind) (bytes : ByteArray) : Except WireFault Envelope :=
  match kind with
  | .protocol =>
    match message.decode bytes with
    | .error fault => .error fault
    | .ok m => .ok (.protocol m)
  | .join =>
    match member.decode bytes with
    | .error fault => .error fault
    | .ok sender => .ok (.join sender)
  | .announce =>
    match member.decode bytes with
    | .error fault => .error fault
    | .ok sender => .ok (.announce sender)

/-- A tag and a body. -/
def frame : Format (String × ByteArray) := Format.text.pair Format.blob

def encode (e : Envelope) : Except Error ByteArray :=
  let bytes := frame.write (e.kind.tag, e.body)
  if maxEnvelopeSize < bytes.size then .error (.codec (.envelopeTooLarge bytes.size))
  else .ok bytes

def decode (bytes : ByteArray) : Except Error Envelope :=
  if maxEnvelopeSize < bytes.size then .error (.codec (.envelopeTooLarge bytes.size))
  else
    match frame.decode bytes with
    | .error fault => .error (.codec (.wire fault))
    | .ok (tag, content) =>
      match Kind.ofTag? tag with
      | none => .error (.unexpectedMessage (.unknownTag tag))
      | some kind =>
        match ofBody kind content with
        | .error fault => .error (.codec (.wire fault))
        | .ok e => .ok e

end Envelope

end ThresholdSigning
