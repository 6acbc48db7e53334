import Mathlib.Data.ZMod.Basic
import ThresholdSigning.Bytes.Value
import ThresholdSigning.Signature

namespace ThresholdSigning

theorem bigEndian_wordBytes (w : BitVec 256) : bigEndian (wordBytes w) = w.toNat := by
  have hwide : (256 : Nat) ^ 32 = 2 ^ 256 := by decide
  rw [wordBytes, bigEndian_toBigEndian, hwide]
  exact Nat.mod_eq_of_lt w.isLt

namespace Signature

open Curve

variable {sig other : Signature}

theorem order_odd : order % 2 = 1 := by decide

/-- The other signature with the same `r`, as negating the nonce point gives it. -/
def twin (sig : Signature) : Signature :=
  ⟨sig.r, BitVec.ofNat 256 (order - sig.s.toNat), sig.recoveryId ^^^ 1⟩

theorem toNat_s_twin (sig : Signature) : sig.twin.s.toNat = order - sig.s.toNat := by
  have hwide : order - sig.s.toNat < 2 ^ 256 := by
    unfold order
    omega
  exact Nat.mod_eq_of_lt hwide

theorem normalize_of_high (hs : sig.s.toNat < order) (hhigh : (order - 1) / 2 < sig.s.toNat) :
    sig.normalize = sig.twin :=
  if_pos ⟨hs, hhigh⟩

theorem normalize_of_low (hlow : sig.s.toNat ≤ (order - 1) / 2) : sig.normalize = sig :=
  if_neg fun h => by omega

theorem normalize_of_order_le (hs : order ≤ sig.s.toNat) : sig.normalize = sig :=
  if_neg fun h => by omega

theorem normalize_r (sig : Signature) : sig.normalize.r = sig.r := by
  unfold normalize
  split <;> rfl

theorem normalize_s_lt_order_iff (sig : Signature) :
    sig.normalize.s.toNat < order ↔ sig.s.toNat < order := by
  by_cases h : sig.s.toNat < order ∧ (order - 1) / 2 < sig.s.toNat
  · rw [normalize_of_high h.1 h.2, toNat_s_twin]
    omega
  · rw [normalize, if_neg h]

theorem normalize_s_le (hs : sig.s.toNat < order) : sig.normalize.s.toNat ≤ (order - 1) / 2 := by
  have hodd := order_odd
  by_cases hhigh : (order - 1) / 2 < sig.s.toNat
  · rw [normalize_of_high hs hhigh, toNat_s_twin]
    omega
  · rw [normalize_of_low (Nat.not_lt.mp hhigh)]
    exact Nat.not_lt.mp hhigh

theorem normalize_normalize (sig : Signature) : sig.normalize.normalize = sig.normalize := by
  by_cases hs : sig.s.toNat < order
  · exact normalize_of_low (normalize_s_le hs)
  · have hkept := normalize_of_order_le (Nat.not_lt.mp hs)
    rw [hkept, hkept]

theorem verify_normalize (sig : Signature) (publicKey : Point) (digest : ByteArray) :
    sig.normalize.verify publicKey digest = sig.verify publicKey digest := by
  unfold verify
  rw [normalize_normalize]

theorem twin_twin (hs : sig.s.toNat ≤ order) : sig.twin.twin = sig := by
  have hback : order - sig.twin.s.toNat = sig.s.toNat := by
    rw [toNat_s_twin]
    omega
  have hflip : sig.recoveryId ^^^ 1 ^^^ 1 = sig.recoveryId := by
    rw [UInt8.xor_assoc, UInt8.xor_self, UInt8.xor_zero]
  unfold twin at hback ⊢
  rw [hback, BitVec.ofNat_toNat, BitVec.setWidth_eq, hflip]

theorem normalize_twin (hpos : 0 < sig.s.toNat) (hs : sig.s.toNat < order) :
    sig.twin.normalize = sig.normalize := by
  have hodd := order_odd
  by_cases hhigh : (order - 1) / 2 < sig.s.toNat
  · rw [normalize_of_high hs hhigh]
    apply normalize_of_low
    rw [toNat_s_twin]
    omega
  · have hlow : (order - 1) / 2 < sig.twin.s.toNat := by
      rw [toNat_s_twin]
      omega
    have hlt : sig.twin.s.toNat < order := by
      rw [toNat_s_twin]
      omega
    rw [normalize_of_low (Nat.not_lt.mp hhigh), normalize_of_high hlt hlow, twin_twin (by omega)]

/-- What verifies has both words in range, and `s` in its lower half once it is normalized. -/
theorem range_of_verify {publicKey : Point} {digest : ByteArray}
    (h : sig.verify publicKey digest = true) :
    0 < sig.r.toNat ∧ sig.r.toNat < order ∧ 0 < sig.normalize.s.toNat ∧
      sig.normalize.s.toNat ≤ (order - 1) / 2 := by
  have hrange : sig.normalize.inRange = true := by
    unfold verify at h
    split at h
    next => cases h
    next =>
      split at h
      next hr => exact hr
      next => cases h
  unfold inRange at hrange
  rw [decide_eq_true_eq, normalize_r] at hrange
  obtain ⟨hr, hrlt, hs, hslt⟩ := hrange
  exact ⟨hr, hrlt, hs, normalize_s_le ((normalize_s_lt_order_iff sig).mp hslt)⟩

theorem s_range_of_verify {publicKey : Point} {digest : ByteArray}
    (h : sig.verify publicKey digest = true) : 0 < sig.s.toNat ∧ sig.s.toNat < order := by
  obtain ⟨-, -, hpos, hle⟩ := range_of_verify h
  have hodd := order_odd
  have hlt : sig.s.toNat < order := (normalize_s_lt_order_iff sig).mp (by omega)
  refine ⟨Nat.pos_of_ne_zero fun hzero => ?_, hlt⟩
  rw [normalize_of_low (by omega)] at hpos
  omega

/-- A signature and its twin verify together, also where they are no signatures at all. -/
theorem verify_twin (sig : Signature) (publicKey : Point) (digest : ByteArray) :
    sig.twin.verify publicKey digest = sig.verify publicKey digest := by
  by_cases hproper : 0 < sig.s.toNat ∧ sig.s.toNat < order
  · rw [← verify_normalize sig.twin, normalize_twin hproper.1 hproper.2, verify_normalize]
  · -- Outside of `1..n-1` the twin's `s` is zero or the order itself.
    have htwin : ¬ (0 < sig.twin.s.toNat ∧ sig.twin.s.toNat < order) := by
      rw [toNat_s_twin]
      omega
    have hnot (x : Signature) (hx : ¬ (0 < x.s.toNat ∧ x.s.toNat < order)) :
        x.verify publicKey digest = false :=
      Bool.eq_false_iff.mpr fun hv => hx (s_range_of_verify hv)
    rw [hnot sig hproper, hnot sig.twin htwin]

/-- The order is odd, so that no scalar is its own negative except zero. -/
theorem twin_s_ne (hs : sig.s.toNat < order) : sig.twin.s ≠ sig.s := by
  intro h
  have hodd := order_odd
  have htwin := toNat_s_twin sig
  rw [h] at htwin
  omega

theorem normalize_cases (sig : Signature) :
    sig.normalize = sig ∨
      0 < sig.s.toNat ∧ sig.s.toNat < order ∧ sig.normalize = sig.twin := by
  by_cases h : sig.s.toNat < order ∧ (order - 1) / 2 < sig.s.toNat
  · exact Or.inr ⟨by omega, h.1, normalize_of_high h.1 h.2⟩
  · exact Or.inl (if_neg h)

theorem normalize_eq_self_iff :
    sig.normalize = sig ↔ sig.s.toNat ≤ (order - 1) / 2 ∨ order ≤ sig.s.toNat := by
  constructor
  · intro h
    by_contra hhigh
    have htwin : sig.normalize = sig.twin := normalize_of_high (by omega) (by omega)
    rw [h] at htwin
    exact twin_s_ne (by omega) (congrArg Signature.s htwin).symm
  · rintro (hlow | hlarge)
    · exact normalize_of_low hlow
    · exact normalize_of_order_le hlarge

theorem isLow_iff : sig.isLow = true ↔ sig.normalize = sig := by
  unfold isLow
  rw [decide_eq_true_eq]
  constructor
  · intro h
    rcases sig.normalize_cases with hsame | ⟨-, hs, htwin⟩
    · exact hsame
    · rw [htwin] at h
      exact absurd h (twin_s_ne hs)
  · intro h
    rw [h]

/-- Only a signature and its twin have the same normal form. -/
theorem normalize_eq_normalize_iff :
    other.normalize = sig.normalize ↔
      other = sig ∨ 0 < sig.s.toNat ∧ sig.s.toNat < order ∧ other = sig.twin := by
  constructor
  · intro h
    rcases other.normalize_cases with hother | ⟨hpos', hs', hother⟩
    · rcases sig.normalize_cases with hsig | ⟨hpos, hs, hsig⟩
      · rw [hother, hsig] at h
        exact Or.inl h
      · rw [hother, hsig] at h
        exact Or.inr ⟨hpos, hs, h⟩
    · have hback : other.twin.twin = other := twin_twin hs'.le
      rcases sig.normalize_cases with hsig | ⟨hpos, hs, hsig⟩
      · rw [hother, hsig] at h
        have htwin := toNat_s_twin other
        rw [h] at hback htwin
        exact Or.inr ⟨by omega, by omega, hback.symm⟩
      · rw [hother, hsig] at h
        rw [h, twin_twin hs.le] at hback
        exact Or.inl hback.symm
  · rintro (rfl | ⟨hpos, hs, rfl⟩)
    · rfl
    · exact normalize_twin hpos hs

theorem testBit_recoveryId_normalize (sig : Signature) {i : Nat} (hi : i ≠ 0) :
    sig.normalize.recoveryId.toNat.testBit i = sig.recoveryId.toNat.testBit i := by
  unfold normalize
  split
  next =>
    have hone : (1 : UInt8).toNat.testBit i = false :=
      Nat.testBit_lt_two_pow (Nat.one_lt_two_pow hi)
    rw [UInt8.toNat_xor, Nat.testBit_xor, hone, Bool.xor_false]
  next => rfl

/-- Taking a scalar from the order gives its negative. -/
theorem cast_order_sub {s : Nat} (hs : s ≤ order) :
    ((order - s : Nat) : ZMod order) = -(s : ZMod order) := by
  rw [Nat.cast_sub hs, ZMod.natCast_self, zero_sub]

/-- The normal form is the signature itself exactly if `s` is in the lower half of the scalars or no
scalar at all, and its twin otherwise, with all 32 bytes of the negated `s`. So `r` and the upper
bits of the recovery id are never changed, a normal form is its own, it has a low `s`, and it is
shared by a signature and its twin and by no others; what is low is what is not changed. -/
theorem normalize_low_form (sig : Signature) :
    let s := bigEndian (wordBytes sig.s)
    (sig.normalize = sig ↔ s ≤ (order - 1) / 2 ∨ order ≤ s) ∧
      ((order - 1) / 2 < s → s < order →
        sig.normalize.r = sig.r ∧ wordBytes sig.normalize.s = toBigEndian 32 (order - s) ∧
          sig.normalize.recoveryId = sig.recoveryId ^^^ 1 ∧
          bigEndian (wordBytes sig.normalize.s) = order - s ∧
          ((order - s : Nat) : ZMod order) = -(s : ZMod order)) ∧
      sig.normalize.normalize = sig.normalize ∧ sig.normalize.r = sig.r ∧
      (∀ i, i ≠ 0 →
        sig.normalize.recoveryId.toNat.testBit i = sig.recoveryId.toNat.testBit i) ∧
      (s < order → bigEndian (wordBytes sig.normalize.s) ≤ (order - 1) / 2) ∧
      (∀ other : Signature, other.normalize = sig.normalize ↔
        other = sig ∨ 0 < s ∧ s < order ∧
          other = ⟨sig.r, BitVec.ofNat 256 (order - s), sig.recoveryId ^^^ 1⟩) ∧
      (sig.isLow = true ↔ sig.normalize = sig) := by
  simp only [bigEndian_wordBytes]
  refine ⟨normalize_eq_self_iff, fun hhigh hs => ?_, normalize_normalize sig, normalize_r sig,
    fun i hi => testBit_recoveryId_normalize sig hi, normalize_s_le,
    fun other => normalize_eq_normalize_iff, isLow_iff⟩
  rw [normalize_of_high hs hhigh, wordBytes, toNat_s_twin]
  exact ⟨rfl, rfl, rfl, rfl, cast_order_sub hs.le⟩

end Signature

end ThresholdSigning
