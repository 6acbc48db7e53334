import ThresholdSigning.Party

namespace ThresholdSigning

/-- What a scripted party says to a message. -/
inductive Verdict
  | accept
  | reject (reason : String)
  | fail (reason : String)

/-- What a scripted party does with messages of one payload. -/
structure Rule where
  payload : ByteArray
  verdict : Verdict
  /-- Produced whatever the verdict is. -/
  outbound : List Outbound
  /-- The call does not return as long as any execution goes on. -/
  hold : Bool

/-- A party that follows a script instead of computing. -/
structure Script (α : Type) where
  /-- How long it takes to make the party, in milliseconds. -/
  makingTakes : Nat
  makingFault : Option PartyError
  outbound : List Outbound
  startFault : Option PartyError
  rules : List Rule
  /-- The party is complete after so many accepted messages. -/
  completeAfter : Nat
  result : Except PartyError α

/-- A scripted party during its computation. -/
structure Actor where
  started : Bool
  produced : List Outbound
  accepted : Nat
  fed : List (ProtocolMessage × Verdict)

namespace Script

variable {α : Type}

def make (script : Script α) : Except PartyError Actor :=
  match script.makingFault with
  | some e => .error e
  | none => .ok ⟨false, [], 0, []⟩

def rule? (script : Script α) (m : ProtocolMessage) : Option Rule :=
  script.rules.find? (·.payload = m.payload)

/-- Without a rule every message is accepted. -/
def verdict (script : Script α) (m : ProtocolMessage) : Verdict :=
  match script.rule? m with
  | some rule => rule.verdict
  | none => .accept

def holds (script : Script α) (m : ProtocolMessage) : Bool :=
  match script.rule? m with
  | some rule => rule.hold
  | none => false

def outboundFor (script : Script α) (m : ProtocolMessage) : List Outbound :=
  match script.rule? m with
  | some rule => rule.outbound
  | none => []

def start (script : Script α) (actor : Actor) : Except PartyError Unit × Actor :=
  (match script.startFault with
    | some e => .error e
    | none => .ok (),
    { actor with started := true, produced := actor.produced ++ script.outbound })

def feed (script : Script α) (m : ProtocolMessage) (actor : Actor) :
    Except PartyError Unit × Actor :=
  let actor := { actor with
    produced := actor.produced ++ script.outboundFor m
    fed := actor.fed ++ [(m, script.verdict m)] }
  match script.verdict m with
  | .accept => (.ok (), { actor with accepted := actor.accepted + 1 })
  | .reject reason => (.error (.unexpectedMessage m.sender reason), actor)
  | .fail reason => (.error (.failure reason), actor)

def party (script : Script α) : Party Actor α where
  start := script.start
  feed := script.feed
  drain actor := (actor.produced, { actor with produced := [] })
  isComplete actor := decide (script.completeAfter ≤ actor.accepted)
  result actor := (script.result, actor)

end Script

end ThresholdSigning
