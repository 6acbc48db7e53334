import ThresholdSigning.Envelope
import ThresholdSigning.Event
import ThresholdSigning.Group
import ThresholdSigning.Sha256
import ThresholdSigning.Transport

namespace ThresholdSigning

/-- What the barrier learns of a peer. -/
inductive Signal
  | join (sender : MemberId)
  | announce (sender : MemberId)
deriving DecidableEq

def Signal.sender : Signal → MemberId
  | join sender => sender
  | announce sender => sender

/-- What is kept of a message to know it again. -/
structure Fingerprint where
  sender : MemberId
  digest : ByteArray
deriving DecidableEq

/-- The flag and the payload are digested together. -/
def ProtocolMessage.fingerprint (m : ProtocolMessage) : Fingerprint :=
  ⟨m.sender, Sha256.digest (⟨#[if m.broadcast then 1 else 0]⟩ ++ m.payload)⟩

/-- How many signals wait at most; later ones are dropped. -/
def signalCapacity : Nat := 256

/-- One execution bound to a transport. What comes in is screened before anything else sees it. -/
structure Bridge where
  group : Group
  subscription : Nat
  /-- The reply to every join. -/
  announce : ByteArray
  /-- The fingerprints of the protocol messages ever accepted. -/
  delivered : List Fingerprint
  /-- Protocol messages that wait to be read. -/
  messages : List ProtocolMessage
  signals : List Signal
  /-- Whether more may come in. -/
  isOpen : Bool

namespace Bridge

variable {τ : Type}

/-- A bridge that has not seen any traffic. -/
def create (group : Group) (subscription : Nat) (announce : ByteArray) : Bridge where
  group := group
  subscription := subscription
  announce := announce
  delivered := []
  messages := []
  signals := []
  isOpen := true

/-- Subscribes for the group. A transport of another member is refused. -/
def connect (group : Group) (t : Transport τ) (s : τ) : Except Error Bridge × τ :=
  if t.localMember ≠ group.localMember then
    (.error (.setting (.foreignTransport t.localMember group.localMember)), s)
  else
    match t.subscribe group.id s with
    | (.error e, s) => (.error (.transport e), s)
    | (.ok subscription, s) =>
      match (Envelope.announce group.localMember).encode with
      | .error e => (.error e, t.release subscription s)
      | .ok announce => (.ok (create group subscription announce), s)

/-- The envelope that some inbound bytes stand for, or why they are discarded. -/
def screen (b : Bridge) (inbound : Inbound) : Except Error Envelope :=
  if inbound.group ≠ b.group.id then .error (.unexpectedMessage (.otherGroup inbound.group))
  else if !b.group.isMember inbound.sender then
    .error (.unexpectedMessage (.notAMember inbound.sender))
  else if inbound.sender = b.group.localMember then .error (.unexpectedMessage .fromLocalMember)
  else
    match Envelope.decode inbound.bytes with
    | .error e => .error e
    | .ok e =>
      if e.sender ≠ inbound.sender then
        .error (.unexpectedMessage (.claims e.sender inbound.sender))
      else
        match e with
        | .protocol m =>
          if m.fingerprint ∈ b.delivered then .error (.unexpectedMessage .duplicate)
          else .ok (.protocol m)
        | .join sender => .ok (.join sender)
        | .announce sender => .ok (.announce sender)

def signal (b : Bridge) (signal : Signal) : Bridge :=
  if b.signals.length < signalCapacity then { b with signals := b.signals ++ [signal] } else b

/-- A join is answered with an announce, and it does not matter whether that one can be sent. -/
def accept (b : Bridge) (t : Transport τ) (e : Envelope) (s : τ) : Bridge × τ :=
  match e with
  | .protocol m =>
    ({ b with
        delivered := m.fingerprint :: b.delivered
        messages := b.messages ++ [m] }, s)
  | .join sender => (b.signal (.join sender), (t.send b.group.id .everyone b.announce s).2)
  | .announce sender => (b.signal (.announce sender), s)

def dropped (b : Bridge) (inbound : Inbound) (e : Error) : Event where
  kind := .messageDropped
  correlationId := some b.group.id
  member := some b.group.localMember.text
  context := Context.empty.insert "sender" inbound.sender.text
  error := some e.message

/-- Handles inbound bytes. Those that are discarded leave an event and change nothing else. -/
def dispatch (b : Bridge) (t : Transport τ) (inbound : Inbound) (s : τ) :
    Option Event × Bridge × τ :=
  match b.screen inbound with
  | .error e => (some (b.dropped inbound e), b, s)
  | .ok e => (none, b.accept t e s)

/-- Stops dispatching and gives the subscription back. What waits to be read stays. -/
def close (b : Bridge) (t : Transport τ) (s : τ) : Bridge × τ :=
  if b.isOpen then ({ b with isOpen := false }, t.release b.subscription s) else (b, s)

/-- Takes the next that comes in, if there is anything. -/
def step (b : Bridge) (t : Transport τ) (s : τ) : Option (Option Event × Bridge × τ) :=
  if b.isOpen then
    match t.receive b.subscription s with
    | (.envelope inbound, s) => some (b.dispatch t inbound s)
    | (.nothing, _) => none
    | (.closed, s) => some (none, b.close t s)
  else none

/-- Takes what comes in, at most `fuel` times. -/
def drain (b : Bridge) (t : Transport τ) (s : τ) : Nat → List Event × Bridge × τ
  | 0 => ([], b, s)
  | fuel + 1 =>
    match b.step t s with
    | none => ([], b, s)
    | some (event, b, s) =>
      let (events, rest) := b.drain t s fuel
      (event.toList ++ events, rest)

/-- Encodes an envelope and hands it to the transport, once. -/
def publish (b : Bridge) (t : Transport τ) (e : Envelope) (target : Target) (s : τ) :
    Except Error Unit × τ :=
  match e.encode with
  | .error e => (.error e, s)
  | .ok bytes =>
    match t.send b.group.id target bytes s with
    | (.error e, s) => (.error (.transport e), s)
    | (.ok _, s) => (.ok (), s)

/-- Messages go to everyone or to a peer. -/
def refusal? (b : Bridge) : Target → Option Rejection
  | .everyone => none
  | .only recipient =>
    if b.group.isPeer recipient then none else some (.notAPeer recipient b.group.id)

/-- Sends a payload of the local member. A transport that fails is not tried again. -/
def send (b : Bridge) (t : Transport τ) (payload : ByteArray) (target : Target) (s : τ) :
    Except Error Unit × τ :=
  match b.refusal? target with
  | some rejection => (.error (.unexpectedMessage rejection), s)
  | none =>
    b.publish t (.protocol ⟨b.group.localMember, payload, decide (target = .everyone)⟩) target s

def broadcastJoin (b : Bridge) (t : Transport τ) (s : τ) : Except Error Unit × τ :=
  b.publish t (.join b.group.localMember) .everyone s

end Bridge

end ThresholdSigning
