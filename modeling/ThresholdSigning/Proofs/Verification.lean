import ThresholdSigning.Proofs.CurveGroup
import ThresholdSigning.Proofs.Normalization

namespace ThresholdSigning.Signature

open Curve

variable {sig : Signature} {key : Point} {digest : ByteArray} {z r s : Nat}

/-- The equation of a signature in the group of the curve: with an inverse `w` of `s`, the point
`z * w * generator + r * w * key` is not at infinity, and has `r` for its first coordinate. -/
def Equation (key : GroupPoint) (z r s : Nat) : Prop :=
  ∃ w x y, s * w % order = 1 ∧
    ((z * w % order) • generator + (r * w % order) • key).coordinates? = some (x, y) ∧
    x % order = r

/-- The rule for a signature as it stands: under a key that is not at infinity, for a digest that is
long enough, with both words scalars other than zero and `s` in the lower half. -/
structure Accepts (digest : ByteArray) (sig : Signature) (key : Point) : Prop where
  key_ne : key ≠ .identity
  r_range : 0 < sig.r.toNat ∧ sig.r.toNat < order
  s_range : 0 < sig.s.toNat ∧ sig.s.toNat ≤ (order - 1) / 2
  equation : ∃ z, digestScalar? digest = some z ∧
    Equation key.toGroup z sig.r.toNat sig.s.toNat

/-- All inverses of a scalar are the same scalar. -/
theorem mul_mod_eq_of_inverse {w w' : Nat} (hw : s * w % order = 1) (hw' : s * w' % order = 1)
    (c : Nat) : c * w % order = c * w' % order := by
  have hone (v : Nat) (hv : s * v % order = 1) : s * v ≡ 1 [MOD order] := by
    rw [Nat.ModEq, hv]
    decide
  calc c * w ≡ c * w * (s * w') [MOD order] := by
        simpa using ((hone w' hw').mul_left (c * w)).symm
    _ = c * w' * (s * w) := by ac_rfl
    _ ≡ c * w' [MOD order] := by simpa using (hone w hw).mul_left (c * w')

theorem coordinates?_point {x y : Nat} (onCurve : OnCurve x y) (u v : Nat) :
    ((base.multiple 256 (u % order)).add
        ((Jacobian.mk x y 1).multiple 256 (v % order))).coordinates? =
      ((u % order) • generator +
        (v % order) • (Point.affine x y onCurve).toGroup).coordinates? := by
  have hlt (a : Nat) : a % order < 2 ^ 256 := (Nat.mod_lt a (by decide)).trans (by decide)
  have hbase := Jacobian.represents_base.multiple (hlt u)
  have hkey := (Jacobian.represents_ofPoint (.affine x y onCurve)).multiple (hlt v)
  exact (hbase.add hkey).coordinates?_eq

theorem holds_iff {x y : Nat} (onCurve : OnCurve x y) (hpos : 0 < s) (hs : s < order) :
    holds x y z r s = true ↔ Equation (Point.affine x y onCurve).toGroup z r s := by
  have hinverse : s * invMod order s % order = 1 :=
    mul_invMod prime_order (by decide) hpos hs
  unfold holds
  dsimp only
  rw [coordinates?_point onCurve]
  constructor
  · intro h
    split at h
    next => cases h
    next a b hpoint =>
      exact ⟨invMod order s, a, b, hinverse, hpoint, by simpa using h⟩
  · rintro ⟨w, a, b, hw, hpoint, hr⟩
    rw [mul_mod_eq_of_inverse hw hinverse, mul_mod_eq_of_inverse hw hinverse] at hpoint
    simp [hpoint, hr]

theorem inRange_iff : sig.inRange = true ↔
    0 < sig.r.toNat ∧ sig.r.toNat < order ∧ 0 < sig.s.toNat ∧ sig.s.toNat < order :=
  decide_eq_true_iff

/-- A signature in its normal form is checked as it stands. -/
theorem verify_iff_accepts (h : sig.normalize = sig) :
    sig.verify key digest = true ↔ Accepts digest sig key := by
  unfold verify
  rw [h]
  constructor
  · intro hverify
    split at hverify
    next => cases hverify
    next x y onCurve =>
      split at hverify
      next hrange =>
        split at hverify
        next => cases hverify
        next z hdigest =>
          obtain ⟨hr, hrlt, hs, hslt⟩ := inRange_iff.mp hrange
          have hlow := normalize_s_le hslt
          rw [h] at hlow
          exact ⟨by simp, ⟨hr, hrlt⟩, ⟨hs, hlow⟩, z, hdigest,
            (holds_iff onCurve hs hslt).mp hverify⟩
      next => cases hverify
  · rintro ⟨hkey, hr, hs, z, hdigest, hequation⟩
    cases key with
    | identity => exact absurd rfl hkey
    | affine x y onCurve =>
      have hodd := order_odd
      have hslt : sig.s.toNat < order := by omega
      have hrange : sig.inRange = true := inRange_iff.mpr ⟨hr.1, hr.2, hs.1, hslt⟩
      simp only [hrange, if_true, hdigest]
      exact (holds_iff onCurve hs.1 hslt).mpr hequation

theorem Accepts.normalize_eq (h : Accepts digest sig key) : sig.normalize = sig :=
  normalize_of_low h.s_range.2

/-- Where the rule refuses a signature for its `s`, it may still accept the twin. -/
theorem verify_iff_accepts_or_twin :
    sig.verify key digest = true ↔ Accepts digest sig key ∨ Accepts digest sig.twin key := by
  constructor
  · intro h
    rcases sig.normalize_cases with hnormal | ⟨-, -, htwin⟩
    · exact Or.inl ((verify_iff_accepts hnormal).mp h)
    · have hkept : sig.twin.normalize = sig.twin := by rw [← htwin, normalize_normalize]
      rw [← verify_normalize, htwin] at h
      exact Or.inr ((verify_iff_accepts hkept).mp h)
  · rintro (h | h)
    · exact (verify_iff_accepts h.normalize_eq).mpr h
    · rw [← verify_twin]
      exact (verify_iff_accepts h.normalize_eq).mpr h

theorem verify_recoveryId (sig : Signature) (id : UInt8) (key : Point) (digest : ByteArray) :
    (⟨sig.r, sig.s, id⟩ : Signature).verify key digest = sig.verify key digest := by
  have hr : (⟨sig.r, sig.s, id⟩ : Signature).normalize.r = sig.normalize.r := by
    rw [normalize_r, normalize_r]
  have hs : (⟨sig.r, sig.s, id⟩ : Signature).normalize.s = sig.normalize.s := by
    unfold normalize
    split <;> rfl
  unfold verify inRange
  rw [hr, hs]

/-- A signature verifies exactly if it or its twin is accepted as it stands. So it verifies together
with its normal form and, with any recovery id, together with its twin; under the point at infinity,
or with a word that is zero or no scalar, nothing verifies. -/
theorem verify_both_forms (sig : Signature) (key : Point) (digest : ByteArray) :
    let r := bigEndian (wordBytes sig.r)
    let s := bigEndian (wordBytes sig.s)
    (sig.verify key digest = true ↔ Accepts digest sig key ∨ Accepts digest sig.twin key) ∧
      sig.normalize.verify key digest = sig.verify key digest ∧
      (1 ≤ s → s < order → ∀ id,
        (⟨sig.r, BitVec.ofNat 256 (order - s), id⟩ : Signature).verify key digest =
          sig.verify key digest) ∧
      (∀ id, (⟨sig.r, sig.s, id⟩ : Signature).verify key digest = sig.verify key digest) ∧
      (sig.verify key digest = true →
        key ≠ .identity ∧ 1 ≤ r ∧ r ≤ order - 1 ∧ 1 ≤ s ∧ s ≤ order - 1) := by
  simp only [bigEndian_wordBytes]
  refine ⟨verify_iff_accepts_or_twin, verify_normalize sig key digest, fun _ _ id => ?_,
    fun id => verify_recoveryId sig id key digest, fun h => ?_⟩
  · have hother := verify_recoveryId sig.twin id key digest
    rw [verify_twin] at hother
    exact hother
  · obtain ⟨hr, hrlt, -, -⟩ := range_of_verify h
    obtain ⟨hs, hslt⟩ := s_range_of_verify h
    refine ⟨?_, hr, by omega, hs, by omega⟩
    rintro rfl
    cases h

/-- Signing with the secret `d` and the nonce `k` solves the equation. -/
theorem equation_of_signed {d k x y : Nat} (hnonce : (k • generator).coordinates? = some (x, y))
    (hr : x % order = r) (hpos : 0 < s) (hs : s < order) (hsign : s * k ≡ z + r * d [MOD order]) :
    Equation (d • generator) z r s := by
  have hinverse : s * invMod order s % order = 1 :=
    mul_invMod prime_order (by decide) hpos hs
  refine ⟨invMod order s, x, y, hinverse, ?_, hr⟩
  generalize invMod order s = w at hinverse
  have hscalar : (z * w + r * w * d) % order = k % order := by
    calc z * w + r * w * d = w * (z + r * d) := by ring
      _ ≡ w * (s * k) [MOD order] := (hsign.mul_left w).symm
      _ = s * w * k := by ring
      _ ≡ 1 * k [MOD order] := Nat.ModEq.mul_right k (by rw [Nat.ModEq, hinverse]; decide)
      _ = k := one_mul k
  rw [← hnonce, ← mod_order_nsmul k, ← hscalar, mod_order_nsmul, mod_order_nsmul, add_nsmul,
    smul_comm, mod_order_nsmul, smul_smul, mul_comm d]

/-- The signature is one that the secret `d` and the nonce `k` make for the digest. -/
structure Signs (d k : Nat) (digest : ByteArray) (sig : Signature) : Prop where
  r_pos : 0 < sig.r.toNat
  s_range : 0 < sig.s.toNat ∧ sig.s.toNat < order
  nonce : ∃ x y, (k • generator).coordinates? = some (x, y) ∧ x % order = sig.r.toNat
  secret : ∃ z, digestScalar? digest = some z ∧
    sig.s.toNat * k ≡ z + sig.r.toNat * d [MOD order]

theorem Signs.accepts {d k : Nat} (h : Signs d k digest sig)
    (hlow : sig.s.toNat ≤ (order - 1) / 2) (hkey : key ≠ .identity)
    (hsecret : key.toGroup = d • generator) : Accepts digest sig key := by
  obtain ⟨x, y, hnonce, hr⟩ := h.nonce
  obtain ⟨z, hdigest, hsign⟩ := h.secret
  have hrlt : sig.r.toNat < order := by
    rw [← hr]
    exact Nat.mod_lt x (by decide)
  refine ⟨hkey, ⟨h.r_pos, hrlt⟩, ⟨h.s_range.1, hlow⟩, z, hdigest, ?_⟩
  rw [hsecret]
  exact equation_of_signed hnonce hr h.s_range.1 h.s_range.2 hsign

/-- The twin is made with the same secret and the opposite nonce. -/
theorem Signs.exists_twin {d k : Nat} (h : Signs d k digest sig) :
    ∃ k', Signs d k' digest sig.twin := by
  obtain ⟨x, y, hnonce, hr⟩ := h.nonce
  obtain ⟨z, hdigest, hsign⟩ := h.secret
  obtain ⟨k', y', hnonce', hcast⟩ := exists_opposite_multiple hnonce
  obtain ⟨hpos, hlt⟩ := h.s_range
  have hs := toNat_s_twin sig
  have hsign' : sig.twin.s.toNat * k' ≡ z + sig.r.toNat * d [MOD order] := by
    rw [← ZMod.natCast_eq_natCast_iff] at hsign ⊢
    rw [Nat.cast_mul, hs, cast_order_sub hlt.le, hcast, neg_mul_neg, ← Nat.cast_mul]
    exact hsign
  exact ⟨k', h.r_pos, ⟨by omega, by omega⟩, ⟨x, y', hnonce', hr⟩, z, hdigest, hsign'⟩

/-- Whatever is signed with the secret of the key verifies, in the low form or in the high one. -/
theorem Signs.verifies {d k : Nat} (h : Signs d k digest sig) (hkey : key ≠ .identity)
    (hsecret : key.toGroup = d • generator) : sig.verify key digest = true := by
  rw [verify_iff_accepts_or_twin]
  rcases Nat.lt_or_ge ((order - 1) / 2) sig.s.toNat with hhigh | hlow
  · obtain ⟨k', htwin⟩ := h.exists_twin
    have hs := toNat_s_twin sig
    have hodd := order_odd
    exact Or.inr (htwin.accepts (by omega) hkey hsecret)
  · exact Or.inl (h.accepts hlow hkey hsecret)

end ThresholdSigning.Signature
