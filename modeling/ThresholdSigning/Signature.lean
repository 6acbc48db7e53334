import ThresholdSigning.Curve.Multiple

namespace ThresholdSigning

/-- The length in bytes of a digest that is signed. -/
def digestLength : Nat := 32

/-- A signature over the curve: two words of 32 bytes and the recovery id. -/
structure Signature where
  r : BitVec 256
  s : BitVec 256
  recoveryId : UInt8
deriving DecidableEq

/-- The 32 bytes of a word, most significant first. -/
def wordBytes (w : BitVec 256) : List UInt8 := toBigEndian 32 w.toNat

/-- The minimal two's-complement form of a natural number given in bytes. -/
def derInteger (bytes : List UInt8) : List UInt8 :=
  match bytes.dropWhile (· = 0) with
  | [] => [0]
  | b :: rest => if 0x80 ≤ b then 0 :: b :: rest else b :: rest

namespace Signature

open Curve

/-- Reads `r` and `s` from 64 bytes. -/
def ofCompact? (bytes : ByteArray) (recoveryId : UInt8) : Option Signature :=
  if bytes.size = 64 then
    some ⟨BitVec.ofNat 256 (bigEndian (bytes.data.toList.take 32)),
      BitVec.ofNat 256 (bigEndian (bytes.data.toList.drop 32)), recoveryId⟩
  else none

def toCompact (sig : Signature) : ByteArray := ⟨⟨wordBytes sig.r ++ wordBytes sig.s⟩⟩

/-- Both words are scalars other than zero. -/
def inRange (sig : Signature) : Bool :=
  decide (0 < sig.r.toNat ∧ sig.r.toNat < order ∧ 0 < sig.s.toNat ∧ sig.s.toNat < order)

/-- A sequence of the two integers. -/
def toDer (sig : Signature) : ByteArray :=
  let r := derInteger (wordBytes sig.r)
  let s := derInteger (wordBytes sig.s)
  ⟨⟨0x30 :: UInt8.ofNat (r.length + s.length + 4) :: 0x02 :: UInt8.ofNat r.length :: r ++
    0x02 :: UInt8.ofNat s.length :: s⟩⟩

/-- The equivalent signature with `s` in the lower half of the scalars. Negating `s` negates the
nonce point, so the parity in the recovery id changes with it. -/
def normalize (sig : Signature) : Signature :=
  if sig.s.toNat < order ∧ (order - 1) / 2 < sig.s.toNat then
    ⟨sig.r, BitVec.ofNat 256 (order - sig.s.toNat), sig.recoveryId ^^^ 1⟩
  else sig

def isLow (sig : Signature) : Bool := sig.normalize.s = sig.s

/-- The scalar of a digest: at least 16 bytes, zeros in front below 32, and no more than the first
32. -/
def digestScalar? (digest : ByteArray) : Option Nat :=
  if digest.size < 16 then none
  else some (bigEndian (digest.data.toList.take 32) % order)

/-- The equation of a signature, for scalars `r` and `s` other than zero. -/
def holds (x y : Nat) (z r s : Nat) : Bool :=
  let inverse := invMod order s
  let u := z * inverse % order
  let v := r * inverse % order
  match ((base.multiple 256 u).add ((Jacobian.mk x y 1).multiple 256 v)).coordinates? with
  | none => false
  | some (x, _) => x % order = r

/-- Checks the signature under a public key. The low and the high form of `s` are both accepted. -/
def verify (sig : Signature) (publicKey : Point) (digest : ByteArray) : Bool :=
  match publicKey with
  | .identity => false
  | .affine x y _ =>
    if sig.normalize.inRange then
      match digestScalar? digest with
      | none => false
      | some z => holds x y z sig.normalize.r.toNat sig.normalize.s.toNat
    else false

end Signature

end ThresholdSigning
