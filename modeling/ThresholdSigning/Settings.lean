import ThresholdSigning.Error

namespace ThresholdSigning

/-- How long executions may take, and what key generation asks for. -/
structure Settings where
  /-- The time for a whole key generation, the barrier included. -/
  keyGenerationSecs : UInt64 := 120
  /-- The time for a whole signing, the barrier included. -/
  signingSecs : UInt64 := 120
  preParamsSecs : UInt64 := 120
  /-- How often a waiting member repeats its join. -/
  joinIntervalMillis : UInt64 := 1000
  /-- Whether key generation without pre-parameters is refused. -/
  requirePreParams : Bool := false
deriving DecidableEq

namespace Settings

def keyGenerationName : String := "keygen_timeout_secs"

def signingName : String := "signing_timeout_secs"

def preParamsName : String := "pre_params_timeout_secs"

def joinIntervalName : String := "join_retransmit_interval_ms"

def requirePreParamsName : String := "require_pre_params"

/-- The settings that are lengths of time, in order. -/
def times (s : Settings) : List (String × UInt64) :=
  [(keyGenerationName, s.keyGenerationSecs), (signingName, s.signingSecs),
    (preParamsName, s.preParamsSecs), (joinIntervalName, s.joinIntervalMillis)]

/-- Every length of time has to be positive; the first that is not is reported. -/
def validate (s : Settings) : Except Error Unit :=
  match s.times.find? (·.2 = 0) with
  | some (name, _) => .error (.setting (.notPositive name))
  | none => .ok ()

def keyGenerationTimeout (s : Settings) : Duration := .ofSecs s.keyGenerationSecs.toNat

def signingTimeout (s : Settings) : Duration := .ofSecs s.signingSecs.toNat

def preParamsTimeout (s : Settings) : Duration := .ofSecs s.preParamsSecs.toNat

def joinInterval (s : Settings) : Duration := .ofMillis s.joinIntervalMillis.toNat

end Settings

end ThresholdSigning
