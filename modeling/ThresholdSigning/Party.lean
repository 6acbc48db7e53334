import ThresholdSigning.Envelope
import ThresholdSigning.Transport

namespace ThresholdSigning

/-- A message that a party wants delivered. -/
structure Outbound where
  payload : ByteArray
  target : Target
deriving DecidableEq

/-- One member's share of a computation in rounds, as calls on a state: `σ` is the state and `α`
what the computation yields. -/
structure Party (σ α : Type) where
  /-- Begins the first round. -/
  start : σ → Except PartyError Unit × σ
  /-- Takes in one message of a round. -/
  feed : ProtocolMessage → σ → Except PartyError Unit × σ
  /-- Gives the messages produced since the last call. -/
  drain : σ → List Outbound × σ
  isComplete : σ → Bool
  /-- Gives the output once the party is complete. -/
  result : σ → Except PartyError α × σ

end ThresholdSigning
