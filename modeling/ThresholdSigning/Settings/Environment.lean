import ThresholdSigning.Settings
import ThresholdSigning.Text.Blank

namespace ThresholdSigning.Settings

/-- The number that a variable holds, or the given one where it is not set. -/
def wordVariable (lookup : String → Option String) (name : String) (unset : UInt64) :
    Except Error UInt64 :=
  match lookup name with
  | none => .ok unset
  | some text =>
    match parseWord (trimBlanks text.toList) with
    | .ok n => .ok (UInt64.ofNat n)
    | .error fault => .error (.setting (.badNumber name fault))

/-- The flag that a variable holds, or the given one where it is not set. -/
def flagVariable (lookup : String → Option String) (name : String) (unset : Bool) :
    Except Error Bool :=
  match lookup name with
  | none => .ok unset
  | some text =>
    match parseFlag (trimBlanks text.toList) with
    | some flag => .ok flag
    | none => .error (.setting (.badFlag name))

/-- Defaults, overridden by variables. A variable that cannot be read is reported before a length
of time that is zero. -/
def ofEnvironment (lookup : String → Option String) : Except Error Settings := do
  let defaults : Settings := {}
  let keyGeneration ← wordVariable lookup "TSS_KEYGEN_TIMEOUT_SECS" defaults.keyGenerationSecs
  let signing ← wordVariable lookup "TSS_SIGNING_TIMEOUT_SECS" defaults.signingSecs
  let preParams ← wordVariable lookup "TSS_PRE_PARAMS_TIMEOUT_SECS" defaults.preParamsSecs
  let joinInterval ←
    wordVariable lookup "TSS_JOIN_RETRANSMIT_INTERVAL_MS" defaults.joinIntervalMillis
  let require ← flagVariable lookup "TSS_REQUIRE_PRE_PARAMS" defaults.requirePreParams
  let settings : Settings := ⟨keyGeneration, signing, preParams, joinInterval, require⟩
  settings.validate
  return settings

end ThresholdSigning.Settings
