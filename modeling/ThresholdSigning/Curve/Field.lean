namespace ThresholdSigning.Curve

/-- The prime of the coordinate field. -/
def prime : Nat := 0xfffffffffffffffffffffffffffffffffffffffffffffffffffffffefffffc2f

/-- The order of the group of points, and of the scalars. -/
def order : Nat := 0xfffffffffffffffffffffffffffffffebaaedce6af48a03bbfd25e8cd0364141

/-- `base ^ exponent` modulo `m`, from the lowest `bits` bits of the exponent. -/
def powMod (m base : Nat) : Nat → Nat → Nat
  | 0, _ => 1 % m
  | bits + 1, exponent =>
    let root := powMod m base bits (exponent / 2)
    let square := root * root % m
    if exponent % 2 = 1 then square * base % m else square

/-- The inverse of `a` modulo a prime of at most 256 bits; zero has the inverse zero. -/
def invMod (m a : Nat) : Nat := powMod m a 256 (m - 2)

/-- The difference of two reduced numbers. -/
def subMod (m a b : Nat) : Nat := (a + (m - b)) % m

end ThresholdSigning.Curve
