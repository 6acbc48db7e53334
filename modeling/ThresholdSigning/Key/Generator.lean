import ThresholdSigning.Key

namespace ThresholdSigning

namespace Duration

/-- Shorter than another length of time. -/
def isLess (a b : Duration) : Bool :=
  decide (a.secs < b.secs ∨ a.secs = b.secs ∧ a.nanos < b.nanos)

end Duration

/-- A generator of pre-parameters: how long it works, and what it returns or why it fails. -/
structure PreParamsGenerator where
  takes : Duration
  result : Except String PreParams

namespace PreParams

/-- Waits for a generator. A result that comes too late is discarded. -/
def generate (generator : PreParamsGenerator) (timeout : Duration) : Except Error PreParams :=
  if generator.takes.isLess timeout then
    match generator.result with
    | .ok p => .ok p
    | .error reason => .error (.protocolFailure (.reported reason))
  else .error (.preParamsTimeout timeout)

end PreParams

end ThresholdSigning
