import ThresholdSigning.Json.Reader
import ThresholdSigning.Json.Writer
import ThresholdSigning.Settings

namespace ThresholdSigning.Settings

def toJson (s : Settings) : Json :=
  .object
    [(some keyGenerationName, .ofWord s.keyGenerationSecs),
      (some signingName, .ofWord s.signingSecs),
      (some preParamsName, .ofWord s.preParamsSecs),
      (some joinIntervalName, .ofWord s.joinIntervalMillis),
      (some requirePreParamsName, .bool s.requirePreParams)]

def text (s : Settings) : String := s.toJson.text

/-- A field that is absent keeps its default. -/
def field {α : Type} (read : Json → Option α) (absent : α) : Option Json → Option α
  | none => some absent
  | some j => read j

/-- Reads settings without judging them. -/
def ofJson? (j : Json) : Option Settings :=
  match j.record?
    [keyGenerationName, signingName, preParamsName, joinIntervalName, requirePreParamsName] with
  | some [keyGeneration, signing, preParams, joinInterval, require] => do
    let defaults : Settings := {}
    return {
      keyGenerationSecs := ← field Json.word? defaults.keyGenerationSecs keyGeneration
      signingSecs := ← field Json.word? defaults.signingSecs signing
      preParamsSecs := ← field Json.word? defaults.preParamsSecs preParams
      joinIntervalMillis := ← field Json.word? defaults.joinIntervalMillis joinInterval
      requirePreParams := ← field Json.flag? defaults.requirePreParams require }
  | _ => none

def parse? (s : String) : Option Settings := (Json.parse? s).bind ofJson?

end ThresholdSigning.Settings
