import ThresholdSigning.Error

namespace ThresholdSigning

/-- Big-endian bytes without a redundant leading zero; zero is the one byte zero. -/
def isCanonical : List UInt8 → Bool
  | [] => false
  | [_] => true
  | b :: _ :: _ => b != 0

/-- A natural number of any size in its one canonical big-endian form. -/
structure BigNum where
  bytes : ByteArray
  canonical : isCanonical bytes.data.toList = true
deriving DecidableEq

/-- The bytes without their leading zeros, but at least one byte. -/
def dropLeadingZeros : List UInt8 → List UInt8
  | [] => [0]
  | [b] => [b]
  | b :: c :: bytes => if b = 0 then dropLeadingZeros (c :: bytes) else b :: c :: bytes

theorem isCanonical_dropLeadingZeros (bytes : List UInt8) :
    isCanonical (dropLeadingZeros bytes) = true := by
  induction bytes with
  | nil => rfl
  | cons b bytes ih =>
    cases bytes with
    | nil => rfl
    | cons c bytes =>
      rw [dropLeadingZeros]
      split
      · exact ih
      · simpa [isCanonical]

namespace BigNum

def ofBytes (bytes : ByteArray) : BigNum where
  bytes := ⟨⟨dropLeadingZeros bytes.data.toList⟩⟩
  canonical := isCanonical_dropLeadingZeros _

/-- Reads a form that has to be canonical already. -/
def ofCanonical (bytes : ByteArray) : Except CodecFault BigNum :=
  if canonical : isCanonical bytes.data.toList = true then .ok ⟨bytes, canonical⟩
  else if bytes.size = 0 then .error .emptyInteger
  else .error .leadingZero

/-- A number of 64 bits. -/
def ofWord (n : Nat) : BigNum := ofBytes ⟨⟨toBigEndian 8 n⟩⟩

def zero : BigNum := ofBytes ⟨#[]⟩

/-- The natural number that stands behind the bytes. -/
def value (n : BigNum) : Nat := bigEndian n.bytes.data.toList

def isZero (n : BigNum) : Bool := n.bytes = ⟨#[0]⟩

/-- The digits of zero are none. -/
def digits (n : BigNum) : List UInt8 := if n.isZero then [] else n.bytes.data.toList

/-- Big-endian bytes of a given number, zeros in front, if the value fits. -/
def padded (n : BigNum) (length : Nat) : Option ByteArray :=
  if n.digits.length ≤ length then
    some ⟨⟨List.replicate (length - n.digits.length) 0 ++ n.digits⟩⟩
  else none

def debug (n : BigNum) : String := "BigNum(0x" ++ hex n.bytes ++ ")"

end BigNum

end ThresholdSigning
