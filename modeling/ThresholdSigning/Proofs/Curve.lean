import ThresholdSigning.Bytes.Value
import ThresholdSigning.Curve.Multiple
import Mathlib.Data.List.Prime
import Mathlib.Data.Nat.Prime.Int
import Mathlib.FieldTheory.Finite.Basic
import Mathlib.NumberTheory.LucasPrimality
import Mathlib.Tactic.NormNum.Prime

namespace ThresholdSigning.Curve

theorem powMod_eq (m a : Nat) {bits n : Nat} (h : n < 2 ^ bits) :
    powMod m a bits n = a ^ n % m := by
  induction bits generalizing n with
  | zero =>
    have hzero : n = 0 := by simpa using h
    rw [hzero, powMod, pow_zero]
  | succ bits ih =>
    have hhalf : n / 2 < 2 ^ bits := by rw [pow_succ] at h; omega
    have hsquare : powMod m a bits (n / 2) * powMod m a bits (n / 2) % m =
        a ^ (2 * (n / 2)) % m := by
      rw [ih hhalf, ← Nat.mul_mod, ← pow_add, two_mul]
    rw [powMod, hsquare]
    split
    next hodd =>
      rw [Nat.mod_mul_mod, ← pow_succ]
      congr 2
      omega
    next heven =>
      congr 2
      omega

theorem cast_pow_eq_one_iff {p : Nat} (hp : 1 < p) {bits n : Nat} (h : n < 2 ^ bits) (a : Nat) :
    (a : ZMod p) ^ n = 1 ↔ powMod p a bits n = 1 := by
  rw [powMod_eq p a h, ← Nat.cast_pow, ← Nat.cast_one, ZMod.natCast_eq_natCast_iff',
    Nat.mod_eq_of_lt hp]

/-- The test of Lucas, with the prime factors of `p - 1` and a witness `a`. -/
theorem prime_of_powMod {p : Nat} (bits a : Nat) (factors : List Nat) (hp : 1 < p)
    (hbits : p ≤ 2 ^ bits) (hfactors : ∀ q ∈ factors, q.Prime) (hprod : factors.prod = p - 1)
    (hfull : powMod p a bits (p - 1) = 1)
    (hpart : ∀ q ∈ factors, powMod p a bits ((p - 1) / q) ≠ 1) : p.Prime := by
  have hlt (n : Nat) (h : n ≤ p - 1) : n < 2 ^ bits := by omega
  apply lucas_primality p (a : ZMod p)
  · exact (cast_pow_eq_one_iff hp (hlt _ le_rfl) a).mpr hfull
  · intro q hq hdvd
    rw [← hprod] at hdvd
    obtain ⟨q', hmem, hq'⟩ := (Prime.dvd_prod_iff hq.prime).mp hdvd
    have heq : q = q' := (Nat.prime_dvd_prime_iff_eq hq (hfactors q' hmem)).mp hq'
    rw [ne_eq, cast_pow_eq_one_iff hp (hlt _ (Nat.div_le_self _ _)) a, heq]
    exact hpart q' hmem

/-- Each prime is certified by the ones before it. -/
theorem prime_prime : prime.Prime := by
  have h₁ : Nat.Prime 173378833005251801 := by
    refine prime_of_powMod 58 6 [2, 2, 2, 5, 5, 2621, 24809, 13331831] (by decide) (by decide) ?_
      (by decide) (by decide +kernel) (by decide +kernel)
    norm_num
  have h₂ : Nat.Prime 22149492674086928081353 := by
    refine prime_of_powMod 75 5 [2, 2, 2, 3, 5323, 173378833005251801] (by decide) (by decide) ?_
      (by decide) (by decide +kernel) (by decide +kernel)
    simp only [List.forall_mem_cons, h₁]
    norm_num
  have h₃ : Nat.Prime 132896956044521568488119 := by
    refine prime_of_powMod 77 6 [2, 3, 22149492674086928081353] (by decide) (by decide) ?_
      (by decide) (by decide +kernel) (by decide +kernel)
    simp only [List.forall_mem_cons, h₂]
    norm_num
  have h₄ : Nat.Prime 255515944373312847190720520512484175977 := by
    refine prime_of_powMod 128 3
      [2, 2, 2, 7, 7, 11, 1627, 2657, 4423, 41201, 96557, 7240687, 107590001]
      (by decide) (by decide) ?_ (by decide) (by decide +kernel) (by decide +kernel)
    norm_num
  have h₅ : Nat.Prime
      205115282021455665897114700593932402728804164701536103180137503955397371 := by
    refine prime_of_powMod 237 10
      [2, 3, 5, 29, 29, 31, 7723, 132896956044521568488119,
        255515944373312847190720520512484175977]
      (by decide) (by decide) ?_ (by decide) (by decide +kernel) (by decide +kernel)
    simp only [List.forall_mem_cons, h₃, h₄]
    norm_num
  refine prime_of_powMod 256 3
    [2, 3, 7, 13441, 205115282021455665897114700593932402728804164701536103180137503955397371]
    (by decide) (by decide) ?_ (by decide) (by decide +kernel) (by decide +kernel)
  simp only [List.forall_mem_cons, h₅]
  norm_num

/-- The scalars are a field as well. -/
theorem prime_order : order.Prime := by
  have h₁ : Nat.Prime 545358713 := by
    refine prime_of_powMod 30 5 [2, 2, 2, 41, 59, 28181] (by decide) (by decide) ?_
      (by decide) (by decide +kernel) (by decide +kernel)
    norm_num
  have h₂ : Nat.Prime 297159362677 := by
    refine prime_of_powMod 39 2 [2, 2, 3, 3, 11, 461, 1627771] (by decide) (by decide) ?_
      (by decide) (by decide +kernel) (by decide +kernel)
    norm_num
  have h₃ : Nat.Prime 29047611873442575647497758179 := by
    refine prime_of_powMod 95 2 [2, 293, 305873, 545358713, 297159362677] (by decide) (by decide)
      ?_ (by decide) (by decide +kernel) (by decide +kernel)
    simp only [List.forall_mem_cons, h₁, h₂]
    norm_num
  have h₄ : Nat.Prime 341948486974166000522343609283189 := by
    refine prime_of_powMod 109 2 [2, 2, 3, 3, 3, 109, 29047611873442575647497758179] (by decide)
      (by decide) ?_ (by decide) (by decide +kernel) (by decide +kernel)
    simp only [List.forall_mem_cons, h₃]
    norm_num
  have h₅ : Nat.Prime 174723607534414371449 := by
    refine prime_of_powMod 68 3 [2, 2, 2, 17, 59, 4051, 120233, 44706919] (by decide) (by decide) ?_
      (by decide) (by decide +kernel) (by decide +kernel)
    norm_num
  have h₆ : Nat.Prime 107361793816595537 := by
    refine prime_of_powMod 57 3 [2, 2, 2, 2, 16699, 85831, 4681609] (by decide) (by decide) ?_
      (by decide) (by decide +kernel) (by decide +kernel)
    norm_num
  refine prime_of_powMod 256 7
    [2, 2, 2, 2, 2, 2, 3, 149, 631, 107361793816595537, 174723607534414371449,
      341948486974166000522343609283189]
    (by decide) (by decide) ?_ (by decide) (by decide +kernel) (by decide +kernel)
  simp only [List.forall_mem_cons, h₄, h₅, h₆]
  norm_num

/-- In the field of a prime the power `m - 2` is the inverse. -/
theorem mul_invMod {p a : Nat} (hp : p.Prime) (hbits : p < 2 ^ 256) (hpos : 0 < a) (hlt : a < p) :
    a * invMod p a % p = 1 := by
  have htwo := hp.two_le
  have hcoprime : a.Coprime p := (Nat.coprime_of_lt_prime hpos.ne' hlt hp).symm
  have hfermat : a ^ (p - 1) % p = 1 % p := by
    have htotient := Nat.ModEq.pow_totient hcoprime
    rwa [Nat.totient_prime hp] at htotient
  have hpred : p - 1 = p - 2 + 1 := by omega
  rw [invMod, powMod_eq p a (by omega), Nat.mul_mod_mod, ← pow_succ', ← hpred, hfermat]
  exact Nat.mod_eq_of_lt hp.one_lt

/-- The square roots of a number modulo an odd prime differ in parity. -/
theorem eq_of_mul_self_mod_eq {p y y' : Nat} (hp : p.Prime) (hodd : p % 2 = 1) (hlt : y < p)
    (hlt' : y' < p) (heq : y * y % p = y' * y' % p) (hparity : y % 2 = y' % 2) : y = y' := by
  have hdvd : (p : Int) ∣ (y' - y) * (y' + y) := by
    have hdiff := Nat.modEq_iff_dvd.mp heq
    rw [Nat.cast_mul, Nat.cast_mul, mul_self_sub_mul_self, mul_comm] at hdiff
    exact hdiff
  rcases (Nat.prime_iff_prime_int.mp hp).dvd_or_dvd hdvd with hdvd | hdvd
  · exact (Nat.modEq_iff_dvd.mpr hdvd).eq_of_lt_of_lt hlt hlt'
  · have hsum : p ∣ y' + y := by exact_mod_cast hdvd
    by_cases hzero : y' + y = 0
    · omega
    · have hroots := Nat.eq_of_dvd_of_lt_two_mul hzero hsum (by omega)
      omega

theorem onCurve_base : OnCurve baseX baseY := by decide +kernel

namespace Point

theorem compressed_inj {p q : Point} (h : p.compressed = q.compressed) : p = q := by
  have hbytes := congrArg (·.data.toList) h
  cases p with
  | identity =>
    cases q with
    | identity => rfl
    | affine x y onCurve => simpa [compressed] using congrArg List.length hbytes
  | affine x y onCurve =>
    cases q with
    | identity => simpa [compressed] using congrArg List.length hbytes
    | affine x' y' onCurve' =>
      simp only [compressed, List.cons.injEq] at hbytes
      have hx : x = x' := by
        have hvalue := congrArg bigEndian hbytes.2
        have hlt : prime < 256 ^ 32 := by decide
        rwa [bigEndian_toBigEndian, bigEndian_toBigEndian,
          Nat.mod_eq_of_lt (onCurve.1.trans hlt), Nat.mod_eq_of_lt (onCurve'.1.trans hlt)] at hvalue
      subst hx
      have hparity : y % 2 = y' % 2 := by
        have htag := hbytes.1
        split at htag <;> split at htag <;> first | omega | cases htag
      have hy : y = y' := eq_of_mul_self_mod_eq prime_prime (by decide) onCurve.2.1 onCurve'.2.1
        (onCurve.2.2.trans onCurve'.2.2.symm) hparity
      subst hy
      rfl

end Point

end ThresholdSigning.Curve
