import Mathlib.Algebra.Order.Ring.Nat
import Mathlib.Data.List.Induction
import ThresholdSigning.Bytes

namespace ThresholdSigning

theorem bytes_ext {x y : ByteArray} (h : x.data.toList = y.data.toList) : x = y :=
  ByteArray.ext (Array.toList_inj.mp h)

theorem toNat_byte (n : Nat) : (UInt8.ofNat n).toNat = n % 256 := rfl

theorem littleEndian_toLittleEndian (width n : Nat) :
    littleEndian (toLittleEndian width n) = n % 256 ^ width := by
  induction width generalizing n with
  | zero => simp [toLittleEndian, littleEndian, Nat.mod_one]
  | succ width ih =>
    rw [toLittleEndian, littleEndian, ih, toNat_byte, Nat.pow_succ', Nat.mod_mul]

theorem littleEndian_lt (bytes : List UInt8) : littleEndian bytes < 256 ^ bytes.length := by
  induction bytes with
  | nil => simp [littleEndian]
  | cons b bytes ih =>
    have := b.toNat_lt
    rw [littleEndian, List.length_cons, Nat.pow_succ']
    omega

theorem toLittleEndian_littleEndian (bytes : List UInt8) :
    toLittleEndian bytes.length (littleEndian bytes) = bytes := by
  induction bytes with
  | nil => rfl
  | cons b bytes ih =>
    have hb := b.toNat_lt
    have hlow : UInt8.ofNat (b.toNat + 256 * littleEndian bytes) = b := by
      apply UInt8.toNat_inj.mp
      rw [toNat_byte]
      omega
    have hhigh : (b.toNat + 256 * littleEndian bytes) / 256 = littleEndian bytes := by omega
    rw [List.length_cons, littleEndian, toLittleEndian, hlow, hhigh, ih]

theorem bigEndian_append_singleton (bytes : List UInt8) (b : UInt8) :
    bigEndian (bytes ++ [b]) = 256 * bigEndian bytes + b.toNat := by
  simp [bigEndian]

theorem bigEndian_toBigEndian (width n : Nat) :
    bigEndian (toBigEndian width n) = n % 256 ^ width := by
  induction width generalizing n with
  | zero => simp [toBigEndian, bigEndian, Nat.mod_one]
  | succ width ih =>
    rw [toBigEndian, bigEndian_append_singleton, ih, toNat_byte, Nat.pow_succ', Nat.mod_mul,
      Nat.add_comm]

theorem toBigEndian_bigEndian (bytes : List UInt8) :
    toBigEndian bytes.length (bigEndian bytes) = bytes := by
  induction bytes using List.reverseRecOn with
  | nil => rfl
  | append_singleton bytes b ih =>
    have hb := b.toNat_lt
    have hlow : UInt8.ofNat (256 * bigEndian bytes + b.toNat) = b := by
      apply UInt8.toNat_inj.mp
      rw [toNat_byte]
      omega
    have hhigh : (256 * bigEndian bytes + b.toNat) / 256 = bigEndian bytes := by omega
    rw [List.length_append, List.length_singleton, bigEndian_append_singleton, toBigEndian, hlow,
      hhigh, ih]

theorem bigEndian_cons (b : UInt8) (bytes : List UInt8) :
    bigEndian (b :: bytes) = b.toNat * 256 ^ bytes.length + bigEndian bytes := by
  induction bytes using List.reverseRecOn with
  | nil => simp [bigEndian]
  | append_singleton bytes c ih =>
    have hpow : 256 * (b.toNat * 256 ^ bytes.length) = b.toNat * 256 ^ (bytes.length + 1) := by
      rw [Nat.mul_left_comm, Nat.pow_succ']
    rw [← List.cons_append, bigEndian_append_singleton, bigEndian_append_singleton, ih,
      List.length_append, List.length_singleton, ← hpow]
    omega

theorem bigEndian_lt (bytes : List UInt8) : bigEndian bytes < 256 ^ bytes.length := by
  induction bytes with
  | nil => simp [bigEndian]
  | cons b bytes ih =>
    have hb := b.toNat_lt
    have hle : b.toNat * 256 ^ bytes.length ≤ 255 * 256 ^ bytes.length :=
      Nat.mul_le_mul_right _ (by omega)
    rw [bigEndian_cons, List.length_cons, Nat.pow_succ']
    omega

theorem bigEndian_zero_cons (bytes : List UInt8) : bigEndian (0 :: bytes) = bigEndian bytes := by
  simp [bigEndian_cons]

theorem bigEndian_replicate_append (count : Nat) (bytes : List UInt8) :
    bigEndian (List.replicate count 0 ++ bytes) = bigEndian bytes := by
  induction count with
  | zero => rfl
  | succ count ih => rw [List.replicate_succ, List.cons_append, bigEndian_zero_cons, ih]

theorem pow_le_bigEndian {b : UInt8} (hb : b ≠ 0) (bytes : List UInt8) :
    256 ^ bytes.length ≤ bigEndian (b :: bytes) := by
  have hpos : 1 ≤ b.toNat := Nat.pos_of_ne_zero fun hzero => hb (UInt8.toNat_inj.mp hzero)
  have hmul : 1 * 256 ^ bytes.length ≤ b.toNat * 256 ^ bytes.length := Nat.mul_le_mul_right _ hpos
  rw [bigEndian_cons]
  omega

theorem bigEndian_inj {bytes other : List UInt8} (hlength : bytes.length = other.length)
    (h : bigEndian bytes = bigEndian other) : bytes = other := by
  rw [← toBigEndian_bigEndian bytes, hlength, h, toBigEndian_bigEndian]

end ThresholdSigning
