import ThresholdSigning.Proofs.Curve
import Mathlib.AlgebraicGeometry.EllipticCurve.Jacobian.Point

namespace ThresholdSigning.Curve

open WeierstrassCurve

instance : Fact prime.Prime := ⟨prime_prime⟩

/-- The curve `y ^ 2 = x ^ 3 + 7` over the coordinate field. -/
@[simps]
def weierstrass : WeierstrassCurve (ZMod prime) := ⟨0, 0, 0, 0, 7⟩

/-- The discriminant is `-432 * 7 ^ 2`. -/
theorem weierstrass_Δ_ne_zero : weierstrass.Δ ≠ 0 := by
  have hΔ : weierstrass.Δ = ((prime - 432 * 7 ^ 2 : Nat) : ZMod prime) := by
    rw [Nat.cast_sub (by decide), Δ, b₂, b₄, b₆, b₈]
    simp
    ring
  rw [hΔ, ne_eq, ZMod.natCast_eq_zero_iff]
  exact Nat.not_dvd_of_pos_of_lt (by decide) (by decide)

theorem OnCurve.nonsingular {x y : Nat} (h : OnCurve x y) :
    weierstrass.toAffine.Nonsingular (x : ZMod prime) (y : ZMod prime) := by
  have hcast : ((y * y : Nat) : ZMod prime) = ((x * x * x + 7 : Nat) : ZMod prime) :=
    (ZMod.natCast_eq_natCast_iff' _ _ _).mpr h.2.2
  push_cast at hcast
  rw [← Affine.equation_iff_nonsingular_of_Δ_ne_zero weierstrass_Δ_ne_zero, Affine.equation_iff]
  simp only [weierstrass_a₁, weierstrass_a₂, weierstrass_a₃, weierstrass_a₄, weierstrass_a₆]
  linear_combination hcast

/-- A point of the curve in its group. -/
abbrev GroupPoint : Type := weierstrass.toAffine.Point

/-- The coordinates as numbers, none at infinity. -/
def GroupPoint.coordinates? : GroupPoint → Option (Nat × Nat)
  | .zero => none
  | .some x y _ => some (x.val, y.val)

def Point.toGroup : Point → GroupPoint
  | .identity => 0
  | .affine _ _ onCurve => .some _ _ onCurve.nonsingular

def generator : GroupPoint := (Point.affine baseX baseY onCurve_base).toGroup

theorem mod_prime_lt (a : Nat) : a % prime < prime := Nat.mod_lt a (by decide)

theorem subMod_lt (a b : Nat) : subMod prime a b < prime := mod_prime_lt _

theorem cast_subMod {a b : Nat} (h : b < prime) : (subMod prime a b : ZMod prime) = a - b := by
  rw [subMod, ZMod.natCast_mod, Nat.cast_add, Nat.cast_sub h.le, ZMod.natCast_self, zero_sub,
    sub_eq_add_neg]

theorem cast_eq_zero_iff {a : Nat} (h : a < prime) : (a : ZMod prime) = 0 ↔ a = 0 := by
  rw [ZMod.natCast_eq_zero_iff, Nat.dvd_iff_mod_eq_zero, Nat.mod_eq_of_lt h]

theorem cast_invMod {a : Nat} (hpos : 0 < a) (hlt : a < prime) :
    (invMod prime a : ZMod prime) = (a : ZMod prime)⁻¹ := by
  have hmul := mul_invMod prime_prime (by decide) hpos hlt
  apply eq_inv_of_mul_eq_one_right
  rw [← Nat.cast_mul, ← ZMod.natCast_mod, hmul, Nat.cast_one]

namespace Jacobian

open WeierstrassCurve.Jacobian

variable {p q : Jacobian} {P Q : GroupPoint}

def Reduced (p : Jacobian) : Prop := p.x < prime ∧ p.y < prime ∧ p.z < prime

/-- The coordinates in their field. -/
def triple (p : Jacobian) : Fin 3 → ZMod prime := ![p.x, p.y, p.z]

@[simp]
theorem triple_zero : p.triple 0 = p.x := rfl

@[simp]
theorem triple_one : p.triple 1 = p.y := rfl

@[simp]
theorem triple_two : p.triple 2 = p.z := rfl

/-- Reduced coordinates of a point of the group. -/
structure Represents (p : Jacobian) (P : GroupPoint) : Prop where
  reduced : p.Reduced
  nonsingular : weierstrass.toJacobian.Nonsingular p.triple
  toAffine_eq : Point.toAffine weierstrass.toJacobian p.triple = P

theorem Represents.eq_zero (hp : p.Represents P) (hz : p.z = 0) : P = 0 := by
  rw [← hp.toAffine_eq]
  exact Point.toAffine_of_Z_eq_zero (by rw [triple_two, hz, Nat.cast_zero])

theorem Represents.triple_two_ne_zero (hp : p.Represents P) (hz : p.z ≠ 0) : p.triple 2 ≠ 0 := by
  rwa [triple_two, ne_eq, cast_eq_zero_iff hp.reduced.2.2]

theorem represents_infinity : infinity.Represents 0 := by
  have hone : 1 < prime := by decide
  have htriple : infinity.triple = ![1, 1, 0] := by
    rw [triple, infinity, Nat.cast_one, Nat.cast_zero]
  refine ⟨⟨hone, hone, by decide⟩, ?_, ?_⟩
  · rw [htriple]
    exact nonsingular_zero
  · rw [htriple]
    exact Point.toAffine_zero

theorem represents_ofPoint (point : Curve.Point) : (ofPoint point).Represents point.toGroup := by
  cases point with
  | identity => exact represents_infinity
  | affine x y onCurve =>
    have hone : 1 < prime := by decide
    have htriple : (ofPoint (.affine x y onCurve)).triple = ![(x : ZMod prime), (y : ZMod prime), 1]
        := by rw [triple, ofPoint, Nat.cast_one]
    have hnonsingular := (nonsingular_some _ _).mpr onCurve.nonsingular
    refine ⟨⟨onCurve.1, onCurve.2.1, hone⟩, ?_, ?_⟩
    · rw [htriple]
      exact hnonsingular
    · rw [htriple]
      exact Point.toAffine_some hnonsingular

theorem represents_base : base.Represents generator :=
  represents_ofPoint (.affine baseX baseY onCurve_base)

theorem Reduced.double (hp : p.Reduced) : p.double.Reduced := by
  unfold Jacobian.double
  split
  next => exact hp
  next => exact ⟨subMod_lt _ _, subMod_lt _ _, mod_prime_lt _⟩

theorem triple_double (hz : p.z ≠ 0) :
    p.double.triple = weierstrass.toJacobian.dblXYZ p.triple := by
  rw [double, if_neg hz]
  refine Matrix.vec3_eq ?_ ?_ ?_
  · simp [cast_subMod, mod_prime_lt, dblX, dblU_eq, negY]
    ring
  · simp [cast_subMod, mod_prime_lt, subMod_lt, dblY, dblZ, negDblY, dblX, dblU_eq, negY]
    ring
  · simp [dblZ, negY]
    ring

theorem Represents.double (hp : p.Represents P) : p.double.Represents (P + P) := by
  by_cases hz : p.z = 0
  · have hzero := hp.eq_zero hz
    rw [Jacobian.double, if_pos hz, hzero, add_zero, ← hzero]
    exact hp
  · have htriple : p.double.triple = weierstrass.toJacobian.add p.triple p.triple := by
      rw [add_self, triple_double hz]
    refine ⟨hp.reduced.double, ?_, ?_⟩
    · rw [htriple]
      exact nonsingular_add hp.nonsingular hp.nonsingular
    · rw [htriple, Point.toAffine_add hp.nonsingular hp.nonsingular, hp.toAffine_eq]

/-- The tests of `add` compare the quotients without dividing. -/
theorem same_x_iff : p.x * (q.z * q.z % prime) % prime = q.x * (p.z * p.z % prime) % prime ↔
    p.triple 0 * q.triple 2 ^ 2 = q.triple 0 * p.triple 2 ^ 2 := by
  rw [← ZMod.natCast_eq_natCast_iff']
  simp [sq]

theorem same_y_iff : p.y * (q.z * q.z % prime) % prime * q.z % prime =
      q.y * (p.z * p.z % prime) % prime * p.z % prime ↔
    p.triple 1 * q.triple 2 ^ 3 = q.triple 1 * p.triple 2 ^ 3 := by
  rw [← ZMod.natCast_eq_natCast_iff']
  simp [pow_succ, mul_assoc]

theorem Reduced.add (hp : p.Reduced) (hq : q.Reduced) : (p.add q).Reduced := by
  unfold Jacobian.add
  dsimp only
  split
  next => exact hq
  next =>
    split
    next => exact hp
    next =>
      split
      next =>
        split
        next => exact hp.double
        next => exact represents_infinity.reduced
      next => exact ⟨subMod_lt _ _, subMod_lt _ _, mod_prime_lt _⟩

/-- Of summands that differ in their first coordinate, the sum differs from the general formula
by a scale factor only. -/
theorem triple_add (hp : weierstrass.toJacobian.Equation p.triple)
    (hq : weierstrass.toJacobian.Equation q.triple) (hpz : p.z ≠ 0) (hqz : q.z ≠ 0)
    (hx : p.triple 0 * q.triple 2 ^ 2 ≠ q.triple 0 * p.triple 2 ^ 2) :
    (p.add q).triple =
      (-(p.z * q.z : ZMod prime)) • weierstrass.toJacobian.addXYZ p.triple q.triple := by
  have haddX := addX_eq' hp hq
  have haddY : weierstrass.toJacobian.negAddY p.triple q.triple * _ = _ := negAddY_eq' _ _
  simp only [triple_zero, triple_one, triple_two, weierstrass_a₁, weierstrass_a₂, addZ]
    at haddX haddY
  rw [smul_fin3, add, if_neg hpz, if_neg hqz]
  simp only [if_neg (same_x_iff.not.mpr hx)]
  refine Matrix.vec3_eq ?_ ?_ ?_
  · simp only [cast_subMod, mod_prime_lt, ZMod.natCast_mod, Nat.cast_mul, Nat.cast_ofNat, addXYZ_X]
    linear_combination -haddX
  · simp only [cast_subMod, mod_prime_lt, subMod_lt, ZMod.natCast_mod, Nat.cast_mul,
      Nat.cast_ofNat, addXYZ_Y, addY, negY_eq, weierstrass_a₁, weierstrass_a₃]
    linear_combination -haddY - (p.y * q.z ^ 3 - q.y * p.z ^ 3 : ZMod prime) * haddX
  · simp only [cast_subMod, mod_prime_lt, ZMod.natCast_mod, Nat.cast_mul, addXYZ_Z, addZ,
      triple_zero, triple_two]
    ring

theorem Represents.add (hp : p.Represents P) (hq : q.Represents Q) :
    (p.add q).Represents (P + Q) := by
  by_cases hpz : p.z = 0
  · rw [Jacobian.add, if_pos hpz, hp.eq_zero hpz, zero_add]
    exact hq
  by_cases hqz : q.z = 0
  · rw [Jacobian.add, if_neg hpz, if_pos hqz, hq.eq_zero hqz, add_zero]
    exact hp
  have hsum := Point.toAffine_add hp.nonsingular hq.nonsingular
  rw [hp.toAffine_eq, hq.toAffine_eq] at hsum
  by_cases hx : p.triple 0 * q.triple 2 ^ 2 = q.triple 0 * p.triple 2 ^ 2
  · by_cases hy : p.triple 1 * q.triple 2 ^ 3 = q.triple 1 * p.triple 2 ^ 3
    · have hdouble : p.add q = p.double := by
        rw [Jacobian.add, if_neg hpz, if_neg hqz]
        simp only [if_pos (same_x_iff.mpr hx), if_pos (same_y_iff.mpr hy)]
      have hsame : P = Q := by
        rw [← hp.toAffine_eq, ← hq.toAffine_eq]
        exact Point.toAffine_of_equiv (equiv_of_X_eq_of_Y_eq (hp.triple_two_ne_zero hpz)
          (hq.triple_two_ne_zero hqz) hx hy)
      rw [hdouble, ← hsame]
      exact hp.double
    · have hinfinity : p.add q = infinity := by
        rw [Jacobian.add, if_neg hpz, if_neg hqz]
        simp only [if_pos (same_x_iff.mpr hx), if_neg (same_y_iff.not.mpr hy)]
      have hzero : P + Q = 0 := by
        rw [← hsum, add_of_not_equiv (not_equiv_of_Y_ne hy)]
        exact Point.toAffine_of_Z_eq_zero (addZ_of_X_eq hx)
      rw [hinfinity, hzero]
      exact represents_infinity
  · have hunit : IsUnit (-(p.z * q.z : ZMod prime)) :=
      (mul_ne_zero (hp.triple_two_ne_zero hpz) (hq.triple_two_ne_zero hqz)).isUnit.neg
    have htriple := triple_add hp.nonsingular.1 hq.nonsingular.1 hpz hqz hx
    rw [← add_of_not_equiv (not_equiv_of_X_ne hx)] at htriple
    refine ⟨hp.reduced.add hq.reduced, ?_, ?_⟩
    · rw [htriple, nonsingular_smul _ hunit]
      exact nonsingular_add hp.nonsingular hq.nonsingular
    · rw [htriple, Point.toAffine_smul _ hunit, hsum]

theorem Represents.multiple (hp : p.Represents P) {bits k : Nat} (h : k < 2 ^ bits) :
    (p.multiple bits k).Represents (k • P) := by
  induction bits generalizing k with
  | zero =>
    have hzero : k = 0 := by simpa using h
    rw [hzero, zero_nsmul]
    exact represents_infinity
  | succ bits ih =>
    have hhalf : k / 2 < 2 ^ bits := by rw [pow_succ] at h; omega
    have htwice := (ih hhalf).double
    rw [← add_nsmul, ← two_mul] at htwice
    rw [Jacobian.multiple]
    split
    next hodd =>
      have hk : 2 * (k / 2) + 1 = k := by omega
      have hsucc := htwice.add hp
      rw [← succ_nsmul, hk] at hsucc
      exact hsucc
    next heven =>
      have hk : 2 * (k / 2) = k := by omega
      rw [hk] at htwice
      exact htwice

theorem Represents.coordinates?_eq (hp : p.Represents P) :
    p.coordinates? = P.coordinates? := by
  by_cases hz : p.z = 0
  · rw [Jacobian.coordinates?, if_pos hz, hp.eq_zero hz]
    rfl
  · have hinverse := cast_invMod (Nat.pos_of_ne_zero hz) hp.reduced.2.2
    have hx : p.x * (invMod prime p.z * invMod prime p.z % prime) % prime =
        (p.triple 0 / p.triple 2 ^ 2).val := by
      rw [← ZMod.val_natCast, Nat.cast_mul, ZMod.natCast_mod, Nat.cast_mul, hinverse, triple_zero,
        triple_two, div_eq_mul_inv, sq, mul_inv]
    have hy : p.y * (invMod prime p.z * invMod prime p.z % prime) % prime * invMod prime p.z %
        prime = (p.triple 1 / p.triple 2 ^ 3).val := by
      rw [← ZMod.val_natCast, Nat.cast_mul, ZMod.natCast_mod, Nat.cast_mul, ZMod.natCast_mod,
        Nat.cast_mul, hinverse, triple_one, triple_two, div_eq_mul_inv, pow_succ, sq, mul_inv,
        mul_inv, mul_assoc]
    rw [← hp.toAffine_eq, Point.toAffine_of_Z_ne_zero hp.nonsingular (hp.triple_two_ne_zero hz),
      GroupPoint.coordinates?, Jacobian.coordinates?, if_neg hz]
    simp only [hx, hy]

end Jacobian

theorem addOrderOf_generator : addOrderOf generator = order := by
  have hinfinity : (base.multiple 256 order).z = 0 := by decide +kernel
  have hzero : order • generator = 0 :=
    (Jacobian.represents_base.multiple (by decide)).eq_zero hinfinity
  have hfact : Fact order.Prime := ⟨prime_order⟩
  exact addOrderOf_eq_prime hzero (by simp [generator, Point.toGroup])

theorem mod_order_nsmul (k : Nat) : (k % order) • generator = k • generator := by
  rw [← addOrderOf_generator, mod_addOrderOf_nsmul]

/-- The opposite multiple has the same first coordinate. -/
theorem exists_opposite_multiple {k x y : Nat} (h : (k • generator).coordinates? = some (x, y)) :
    ∃ k' y' : Nat, (k' • generator).coordinates? = some (x, y') ∧ (k' : ZMod order) = -k := by
  have hsum : (order - 1) * k + k = order * k := by
    rw [← Nat.succ_mul]
    rfl
  have hopposite : ((order - 1) * k) • generator = -(k • generator) := by
    rw [← add_eq_zero_iff_eq_neg, ← add_nsmul, hsum, ← mod_order_nsmul, Nat.mul_mod_right,
      zero_nsmul]
  have hcast : (((order - 1) * k : Nat) : ZMod order) = -k := by
    rw [← add_eq_zero_iff_eq_neg, ← Nat.cast_add, hsum, Nat.cast_mul, ZMod.natCast_self, zero_mul]
  cases hpoint : k • generator with
  | zero =>
    rw [hpoint] at h
    cases h
  | some a b _ =>
    rw [hpoint] at h hopposite
    cases h
    exact ⟨_, _, by rw [hopposite]; rfl, hcast⟩

end ThresholdSigning.Curve
