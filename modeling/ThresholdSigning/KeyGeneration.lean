import ThresholdSigning.Execution
import ThresholdSigning.Key
import ThresholdSigning.Settings

namespace ThresholdSigning.KeyGeneration

/-- Reports that the computation has to make its own pre-parameters. -/
def preParamsMissing (group : Group) : Event where
  kind := .preParamsMissing
  correlationId := some group.id
  member := some group.localMember.text

/-- Checks the arguments of a key generation before anything is sent. -/
def plan (settings : Settings) (group : Group) (preParams : Option PreParams) :
    Except Error (List Event × Plan) := do
  settings.validate
  if preParams.isNone && settings.requirePreParams then throw .missingPreParams
  return (if preParams.isNone then [preParamsMissing group] else [],
    ⟨.keyGeneration, settings.keyGenerationTimeout, settings.joinInterval, group⟩)

/-- What the local member keeps of a key that was generated. -/
def conclude (group : Group) (key : ThresholdKey) : Except Error Signer := .ok ⟨group, key⟩

end ThresholdSigning.KeyGeneration
