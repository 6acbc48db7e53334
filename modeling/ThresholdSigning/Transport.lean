import ThresholdSigning.Error

namespace ThresholdSigning

/-- Bytes received from the network, with the group they were published to and the member that
published them, as the network knows it. -/
structure Inbound where
  group : String
  sender : MemberId
  bytes : ByteArray
deriving DecidableEq

/-- Whom a message is for. -/
inductive Target
  | everyone
  | only (recipient : MemberId)
deriving DecidableEq

/-- What a subscription has next. -/
inductive Arrival
  | envelope (e : Inbound)
  | nothing
  | closed

/-- What one member sees of a network whose state is a `τ`. A subscription is known by a number. -/
structure Transport (τ : Type) where
  localMember : MemberId
  subscribe : String → τ → Except TransportError Nat × τ
  receive : Nat → τ → Arrival × τ
  release : Nat → τ → τ
  send : String → Target → ByteArray → τ → Except TransportError Unit × τ

namespace Transport

variable {σ τ : Type}

/-- The same transport where its network is a part of something larger. -/
def through (get : σ → τ) (put : τ → σ → σ) (t : Transport τ) : Transport σ where
  localMember := t.localMember
  subscribe group s :=
    let (result, part) := t.subscribe group (get s)
    (result, put part s)
  receive id s :=
    let (arrival, part) := t.receive id (get s)
    (arrival, put part s)
  release id s := put (t.release id (get s)) s
  send group target bytes s :=
    let (result, part) := t.send group target bytes (get s)
    (result, put part s)

end Transport

end ThresholdSigning
