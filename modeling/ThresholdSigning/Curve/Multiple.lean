import ThresholdSigning.Curve.Point

namespace ThresholdSigning.Curve

/-- The point `(x / z ^ 2, y / z ^ 3)`, at infinity where `z` is zero. -/
structure Jacobian where
  x : Nat
  y : Nat
  z : Nat

namespace Jacobian

def infinity : Jacobian := ⟨1, 1, 0⟩

def ofPoint : Point → Jacobian
  | .identity => infinity
  | .affine x y _ => ⟨x, y, 1⟩

def double (p : Jacobian) : Jacobian :=
  if p.z = 0 then p
  else
    let a := p.x * p.x % prime
    let b := p.y * p.y % prime
    let s := 4 * p.x * b % prime
    let m := 3 * a % prime
    let x := subMod prime (m * m % prime) (2 * s % prime)
    ⟨x, subMod prime (m * subMod prime s x % prime) (8 * b * b % prime), 2 * p.y * p.z % prime⟩

def add (p q : Jacobian) : Jacobian :=
  if p.z = 0 then q
  else if q.z = 0 then p
  else
    let pz := p.z * p.z % prime
    let qz := q.z * q.z % prime
    let u := p.x * qz % prime
    let v := q.x * pz % prime
    let s := p.y * qz % prime * q.z % prime
    let t := q.y * pz % prime * p.z % prime
    if u = v then
      if s = t then double p else infinity
    else
      let h := subMod prime v u
      let r := subMod prime t s
      let hh := h * h % prime
      let hhh := h * hh % prime
      let w := u * hh % prime
      let x := subMod prime (subMod prime (r * r % prime) hhh) (2 * w % prime)
      ⟨x, subMod prime (r * subMod prime w x % prime) (s * hhh % prime),
        p.z * q.z % prime * h % prime⟩

/-- The multiple of `p` by the lowest `bits` bits of `k`. -/
def multiple (p : Jacobian) : Nat → Nat → Jacobian
  | 0, _ => infinity
  | bits + 1, k =>
    let twice := double (multiple p bits (k / 2))
    if k % 2 = 1 then add twice p else twice

/-- The first and second coordinate, none at infinity. -/
def coordinates? (p : Jacobian) : Option (Nat × Nat) :=
  if p.z = 0 then none
  else
    let inverse := invMod prime p.z
    let square := inverse * inverse % prime
    some (p.x * square % prime, p.y * square % prime * inverse % prime)

end Jacobian

def baseX : Nat := 0x79be667ef9dcbbac55a06295ce870b07029bfcdb2dce28d959f2815b16f81798

def baseY : Nat := 0x483ada7726a3c4655da4fbfc0e1108a8fd17b448a68554199c47d08ffb10d4b8

def base : Jacobian := ⟨baseX, baseY, 1⟩

/-- The multiple of the base point by a scalar. -/
def baseMultiple? (scalar : Nat) : Option Point :=
  match (base.multiple 256 scalar).coordinates? with
  | none => some .identity
  | some (x, y) => Point.ofCoordinates? x y

end ThresholdSigning.Curve
