import ThresholdSigning.Curve.Field
import ThresholdSigning.Error

namespace ThresholdSigning.Curve

/-- Reduced coordinates that satisfy the equation `y ^ 2 = x ^ 3 + 7`. -/
def OnCurve (x y : Nat) : Prop :=
  x < prime ∧ y < prime ∧ y * y % prime = (x * x * x + 7) % prime

instance (x y : Nat) : Decidable (OnCurve x y) := by
  unfold OnCurve
  infer_instance

/-- A point of the curve, or the point at infinity. -/
inductive Point
  | identity
  | affine (x y : Nat) (onCurve : OnCurve x y)
deriving DecidableEq

namespace Point

def ofCoordinates? (x y : Nat) : Option Point :=
  if onCurve : OnCurve x y then some (.affine x y onCurve) else none

/-- A tag and both coordinates in 65 bytes; a single zero byte for the point at infinity. -/
def toBytes : Point → ByteArray
  | identity => ⟨#[0]⟩
  | affine x y _ => ⟨⟨4 :: toBigEndian 32 x ++ toBigEndian 32 y⟩⟩

/-- Of the two encodings in use, only the one with both coordinates and the single zero byte. -/
def ofBytes (bytes : ByteArray) : Except CodecFault Point :=
  if bytes = ⟨#[0]⟩ then .ok .identity
  else if bytes.size = 65 then
    match bytes.data.toList with
    | 4 :: coordinates =>
      match ofCoordinates? (bigEndian (coordinates.take 32)) (bigEndian (coordinates.drop 32)) with
      | some point => .ok point
      | none => .error .pointOffCurve
    | _ => .error .pointEncoding
  else .error (.pointLength bytes.size)

/-- The parity of the second coordinate, then the first one. -/
def compressed : Point → ByteArray
  | identity => ⟨#[0]⟩
  | affine x y _ => ⟨⟨(if y % 2 = 0 then 2 else 3) :: toBigEndian 32 x⟩⟩

def isIdentity : Point → Bool
  | identity => true
  | affine _ _ _ => false

def debug (p : Point) : String := "CurvePoint(" ++ hex p.compressed ++ ")"

end Point

end ThresholdSigning.Curve
