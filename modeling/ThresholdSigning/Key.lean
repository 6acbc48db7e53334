import ThresholdSigning.BigNum
import ThresholdSigning.Curve.Point
import ThresholdSigning.Group

namespace ThresholdSigning

open Curve (Point)

/-- A secret key of the encryption scheme, with its public modulus. -/
structure PaillierKey where
  n : BigNum
  lambdaN : BigNum
  phiN : BigNum
deriving DecidableEq

/-- Expensive parameters of one member, generated ahead of key generation. -/
structure PreParams where
  paillier : PaillierKey
  nTilde : BigNum
  h1 : BigNum
  h2 : BigNum
deriving DecidableEq

/-- The local member's secret share and its public share id. -/
structure Secrets where
  xi : BigNum
  shareId : BigNum
deriving DecidableEq

/-- What key generation yields for one member. Lists are in the order of the group's members. -/
structure ThresholdKey where
  preParams : PreParams
  secrets : Secrets
  ks : List BigNum
  nTildeJ : List BigNum
  h1J : List BigNum
  h2J : List BigNum
  bigXJ : List Point
  paillierPks : List BigNum
  ecdsaPub : Point
deriving DecidableEq

/-- A member's lasting hold on a threshold key. -/
structure Signer where
  group : Group
  key : ThresholdKey
deriving DecidableEq

/-- The text of a public modulus. -/
def modulusDebug (n : BigNum) : String := recordText "PaillierPublicKey" [("n", n.debug)] false

namespace PaillierKey

/-- The secret factors are held back. -/
def debug (k : PaillierKey) : String :=
  recordText "PaillierPrivateKey" [("public_key", modulusDebug k.n)] true

end PaillierKey

namespace PreParams

def debug (p : PreParams) : String :=
  recordText "LocalPreParams"
    [("paillier_sk", p.paillier.debug), ("n_tilde", p.nTilde.debug), ("h1", p.h1.debug),
      ("h2", p.h2.debug)] false

end PreParams

namespace Secrets

/-- The secret share is held back. -/
def debug (s : Secrets) : String := recordText "LocalSecrets" [("share_id", s.shareId.debug)] true

end Secrets

namespace ThresholdKey

def debug (k : ThresholdKey) : String :=
  recordText "ThresholdKey"
    [("local_pre_params", k.preParams.debug), ("local_secrets", k.secrets.debug),
      ("ks", listText (k.ks.map BigNum.debug)),
      ("n_tilde_j", listText (k.nTildeJ.map BigNum.debug)),
      ("h1_j", listText (k.h1J.map BigNum.debug)), ("h2_j", listText (k.h2J.map BigNum.debug)),
      ("big_x_j", listText (k.bigXJ.map Point.debug)),
      ("paillier_pks", listText (k.paillierPks.map modulusDebug)),
      ("ecdsa_pub", k.ecdsaPub.debug)] false

end ThresholdKey

namespace Signer

def debug (s : Signer) : String :=
  recordText "ThresholdSigner"
    [("group_info", s.group.debug), ("threshold_key", s.key.debug)] false

end Signer

end ThresholdSigning
