import ThresholdSigning.Key
import ThresholdSigning.Wire.Format

namespace ThresholdSigning

open Curve (Point)

/-- The stored form of a group: the threshold is signed there. -/
structure GroupRecord where
  id : String
  localMember : ByteArray
  members : List ByteArray
  threshold : Int

/-- The stored form of a signer, its key still in bytes. -/
structure SignerRecord where
  version : Nat
  group : GroupRecord
  key : ByteArray

/-- The stored form of a key: numbers and points in bytes. -/
structure KeyRecord where
  n : ByteArray
  lambdaN : ByteArray
  phiN : ByteArray
  nTilde : ByteArray
  h1 : ByteArray
  h2 : ByteArray
  xi : ByteArray
  shareId : ByteArray
  ks : List ByteArray
  nTildeJ : List ByteArray
  h1J : List ByteArray
  h2J : List ByteArray
  bigXJ : List ByteArray
  paillierPks : List ByteArray
  ecdsaPub : ByteArray

/-- The version of stored signers. -/
def recordVersion : Nat := 1

namespace GroupRecord

open Format in
def format : Format GroupRecord :=
  (text.pair (blob.pair (blob.list.pair signed32))).map
    (fun x => ⟨x.1, x.2.1, x.2.2.1, x.2.2.2⟩)
    (fun r => (r.id, r.localMember, r.members, r.threshold))

end GroupRecord

namespace SignerRecord

open Format in
def format : Format SignerRecord :=
  ((fixed 4).pair (GroupRecord.format.pair blob)).map
    (fun x => ⟨x.1, x.2.1, x.2.2⟩) (fun r => (r.version, r.group, r.key))

end SignerRecord

namespace KeyRecord

open Format in
def format : Format KeyRecord :=
  (blob.pair (blob.pair (blob.pair (blob.pair (blob.pair (blob.pair (blob.pair (blob.pair
    (blob.list.pair (blob.list.pair (blob.list.pair (blob.list.pair (blob.list.pair
      (blob.list.pair blob)))))))))))))).map
    (fun (n, lambdaN, phiN, nTilde, h1, h2, xi, shareId, ks, nTildeJ, h1J, h2J, bigXJ, paillierPks,
        ecdsaPub) =>
      ⟨n, lambdaN, phiN, nTilde, h1, h2, xi, shareId, ks, nTildeJ, h1J, h2J, bigXJ, paillierPks,
        ecdsaPub⟩)
    (fun r => (r.n, r.lambdaN, r.phiN, r.nTilde, r.h1, r.h2, r.xi, r.shareId, r.ks, r.nTildeJ,
      r.h1J, r.h2J, r.bigXJ, r.paillierPks, r.ecdsaPub))

def ofKey (k : ThresholdKey) : KeyRecord where
  n := k.preParams.paillier.n.bytes
  lambdaN := k.preParams.paillier.lambdaN.bytes
  phiN := k.preParams.paillier.phiN.bytes
  nTilde := k.preParams.nTilde.bytes
  h1 := k.preParams.h1.bytes
  h2 := k.preParams.h2.bytes
  xi := k.secrets.xi.bytes
  shareId := k.secrets.shareId.bytes
  ks := k.ks.map BigNum.bytes
  nTildeJ := k.nTildeJ.map BigNum.bytes
  h1J := k.h1J.map BigNum.bytes
  h2J := k.h2J.map BigNum.bytes
  bigXJ := k.bigXJ.map Point.toBytes
  paillierPks := k.paillierPks.map BigNum.bytes
  ecdsaPub := k.ecdsaPub.toBytes

/-- The first field that is no number or no point decides, in the order of the record. -/
def toKey (r : KeyRecord) : Except CodecFault ThresholdKey := do
  let n ← BigNum.ofCanonical r.n
  let lambdaN ← BigNum.ofCanonical r.lambdaN
  let phiN ← BigNum.ofCanonical r.phiN
  let nTilde ← BigNum.ofCanonical r.nTilde
  let h1 ← BigNum.ofCanonical r.h1
  let h2 ← BigNum.ofCanonical r.h2
  let xi ← BigNum.ofCanonical r.xi
  let shareId ← BigNum.ofCanonical r.shareId
  let ks ← r.ks.mapM BigNum.ofCanonical
  let nTildeJ ← r.nTildeJ.mapM BigNum.ofCanonical
  let h1J ← r.h1J.mapM BigNum.ofCanonical
  let h2J ← r.h2J.mapM BigNum.ofCanonical
  let bigXJ ← r.bigXJ.mapM Point.ofBytes
  let paillierPks ← r.paillierPks.mapM BigNum.ofCanonical
  let ecdsaPub ← Point.ofBytes r.ecdsaPub
  return ⟨⟨⟨n, lambdaN, phiN⟩, nTilde, h1, h2⟩, ⟨xi, shareId⟩, ks, nTildeJ, h1J, h2J, bigXJ,
    paillierPks, ecdsaPub⟩

end KeyRecord

namespace Signer

/-- The stored form; a threshold of more than 31 bits has none. -/
def marshal (s : Signer) : Except Error ByteArray :=
  if s.group.threshold < 0x80000000 then
    .ok (SignerRecord.format.write
      ⟨recordVersion,
        ⟨s.group.id, s.group.localMember.bytes, s.group.members.map MemberId.bytes,
          s.group.threshold⟩,
        KeyRecord.format.write (KeyRecord.ofKey s.key)⟩)
  else .error (.codec (.thresholdTooWide s.group.threshold))

/-- Reads a stored signer; the group is checked again. -/
def unmarshal (bytes : ByteArray) : Except Error Signer :=
  match SignerRecord.format.decode bytes with
  | .error fault => .error (.codec (.wire fault))
  | .ok record =>
    if record.version ≠ recordVersion then .error (.codec (.recordVersion record.version))
    else if record.group.threshold < 0 then
      .error (.codec (.negativeThreshold record.group.threshold))
    else
      match Group.create record.group.id ⟨record.group.localMember⟩
          (record.group.members.map MemberId.mk) record.group.threshold.toNat with
      | .error e => .error e
      | .ok group =>
        match KeyRecord.format.decode record.key with
        | .error fault => .error (.codec (.wire fault))
        | .ok keyRecord =>
          match keyRecord.toKey with
          | .error fault => .error (.codec fault)
          | .ok key => .ok ⟨group, key⟩

end Signer

end ThresholdSigning
