import ThresholdSigning.Execution
import ThresholdSigning.Key
import ThresholdSigning.Settings
import ThresholdSigning.Signature

namespace ThresholdSigning

/-- The id of the execution that signs a digest under the key of a group. -/
def signingId (group : String) (digest : ByteArray) : String := group ++ "/signing/" ++ hex digest

namespace Signing

/-- Checks the arguments of a signing before anything is sent. -/
def plan (settings : Settings) (signer : Signer) (digest : ByteArray)
    (participants : List MemberId) : Except Error (List Event × Plan) := do
  settings.validate
  if digest.size ≠ digestLength then throw (.invalidDigestLength digestLength digest.size)
  match participants.find? (!signer.group.isMember ·) with
  | some outsider => throw (.memberNotInGroup outsider)
  | none =>
    let group ← Group.create (signingId signer.group.id digest) signer.group.localMember
      participants signer.group.threshold
    return ([], ⟨.signing, settings.signingTimeout, settings.joinInterval, group⟩)

/-- Accepts a signature that verifies, in its low form. -/
def conclude (signer : Signer) (digest : ByteArray) (sig : Signature) : Except Error Signature :=
  if sig.normalize.verify signer.key.ecdsaPub digest then .ok sig.normalize
  else .error (.protocolFailure .unverifiedSignature)

end Signing

end ThresholdSigning
