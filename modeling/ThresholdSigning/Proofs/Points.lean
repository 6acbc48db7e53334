import ThresholdSigning.Proofs.Key
import Mathlib.Data.Nat.ModEq

namespace ThresholdSigning.Curve

theorem onCurve_iff {x y : Nat} :
    OnCurve x y ↔ x < prime ∧ y < prime ∧ y ^ 2 ≡ x ^ 3 + 7 [MOD prime] := by
  rw [pow_two, pow_three']
  rfl

namespace Point

variable {bytes : ByteArray} {xs ys : List UInt8} {p : Point} {fault : CodecFault}

/-- Bytes that say where both coordinates stand, in 32 bytes each. -/
structure Uncompressed (bytes : ByteArray) (xs ys : List UInt8) : Prop where
  toList_eq : bytes.data.toList = 4 :: (xs ++ ys)
  length_x : xs.length = 32
  length_y : ys.length = 32

/-- Why bytes are no encoding of a point. -/
inductive Refuses (bytes : ByteArray) : CodecFault → Prop
  | length (hzero : bytes ≠ ⟨#[0]⟩) (hsize : bytes.size ≠ 65) :
      Refuses bytes (.pointLength bytes.size)
  | tag {b : UInt8} {rest : List UInt8} (hbytes : bytes.data.toList = b :: rest)
      (hrest : rest.length = 64) (htag : b ≠ 4) : Refuses bytes .pointEncoding
  | offCurve {xs ys : List UInt8} (hbytes : Uncompressed bytes xs ys)
      (hcurve : ¬ OnCurve (bigEndian xs) (bigEndian ys)) : Refuses bytes .pointOffCurve

theorem uncompressed_toBytes {x y : Nat} (h : OnCurve x y) :
    Uncompressed (affine x y h).toBytes (toBigEndian 32 x) (toBigEndian 32 y) :=
  ⟨rfl, length_toBigEndian 32 x, length_toBigEndian 32 y⟩

theorem bigEndian_coordinate {x : Nat} (h : x < prime) : bigEndian (toBigEndian 32 x) = x := by
  have hlt : prime < 256 ^ 32 := by decide
  rw [bigEndian_toBigEndian, Nat.mod_eq_of_lt (h.trans hlt)]

theorem Uncompressed.size_eq (h : Uncompressed bytes xs ys) : bytes.size = 65 := by
  have hlength : bytes.size = (4 :: (xs ++ ys)).length := congrArg List.length h.toList_eq
  rw [hlength, List.length_cons, List.length_append, h.length_x, h.length_y]

theorem ne_zero_of_size (h : bytes.size = 65) : bytes ≠ ⟨#[0]⟩ := by
  rintro rfl
  exact absurd h (by decide)

theorem Uncompressed.ofBytes_eq (h : Uncompressed bytes xs ys) :
    ofBytes bytes =
      if onCurve : OnCurve (bigEndian xs) (bigEndian ys) then .ok (.affine _ _ onCurve)
      else .error .pointOffCurve := by
  have hsize := h.size_eq
  have hfront : (xs ++ ys).take 32 = xs := List.take_left' h.length_x
  have hback : (xs ++ ys).drop 32 = ys := List.drop_left' h.length_x
  rw [ofBytes, if_neg (ne_zero_of_size hsize), if_pos hsize]
  simp only [h.toList_eq, hfront, hback, ofCoordinates?]
  split
  next point hpoint =>
    split at hpoint
    next onCurve =>
      cases hpoint
      rw [dif_pos onCurve]
    next => cases hpoint
  next hnone =>
    split at hnone
    next => cases hnone
    next hoff => rw [dif_neg hoff]

theorem exists_ofBytes_iff :
    (∃ p, ofBytes bytes = .ok p) ↔
      bytes = ⟨#[0]⟩ ∨
        ∃ xs ys, Uncompressed bytes xs ys ∧ OnCurve (bigEndian xs) (bigEndian ys) := by
  constructor
  · rintro ⟨p, hp⟩
    rw [ofBytes_eq_ok_iff] at hp
    subst hp
    cases p with
    | identity => exact Or.inl rfl
    | affine x y h =>
      refine Or.inr ⟨_, _, uncompressed_toBytes h, ?_⟩
      rwa [bigEndian_coordinate h.1, bigEndian_coordinate h.2.1]
  · rintro (rfl | ⟨xs, ys, hbytes, hcurve⟩)
    · exact ⟨.identity, rfl⟩
    · exact ⟨.affine _ _ hcurve, by rw [hbytes.ofBytes_eq, dif_pos hcurve]⟩

theorem Refuses.ofBytes_eq (h : Refuses bytes fault) : ofBytes bytes = .error fault := by
  cases h with
  | length hzero hsize => rw [ofBytes, if_neg hzero, if_neg hsize]
  | @tag b rest hbytes hrest htag =>
    have hsize : bytes.size = 65 := by
      have hlength : bytes.size = rest.length + 1 := congrArg List.length hbytes
      omega
    rw [ofBytes, if_neg (ne_zero_of_size hsize), if_pos hsize]
    split
    next coordinates hfour =>
      rw [hbytes] at hfour
      exact absurd (List.cons.inj hfour).1 htag
    next => rfl
  | offCurve hbytes hcurve => rw [hbytes.ofBytes_eq, dif_neg hcurve]

theorem accepted_or_refused (bytes : ByteArray) :
    (∃ p, ofBytes bytes = .ok p) ∨ ∃ fault, Refuses bytes fault := by
  by_cases hzero : bytes = ⟨#[0]⟩
  · exact Or.inl (exists_ofBytes_iff.mpr (Or.inl hzero))
  by_cases hsize : bytes.size = 65
  · cases hbytes : bytes.data.toList with
    | nil =>
      have hlength : bytes.size = 0 := congrArg List.length hbytes
      omega
    | cons b rest =>
      have hrest : bytes.size = rest.length + 1 := congrArg List.length hbytes
      by_cases htag : b = 4
      · have hcoordinates : Uncompressed bytes (rest.take 32) (rest.drop 32) := by
          refine ⟨by rw [List.take_append_drop, hbytes, htag], ?_, ?_⟩
          · rw [List.length_take]
            omega
          · rw [List.length_drop]
            omega
        by_cases hcurve : OnCurve (bigEndian (rest.take 32)) (bigEndian (rest.drop 32))
        · exact Or.inl (exists_ofBytes_iff.mpr (Or.inr ⟨_, _, hcoordinates, hcurve⟩))
        · exact Or.inr ⟨_, .offCurve hcoordinates hcurve⟩
      · exact Or.inr ⟨_, .tag hbytes (by omega) htag⟩
  · exact Or.inr ⟨_, .length hzero hsize⟩

theorem ofBytes_eq_error_iff : ofBytes bytes = .error fault ↔ Refuses bytes fault := by
  refine ⟨fun h => ?_, Refuses.ofBytes_eq⟩
  rcases accepted_or_refused bytes with ⟨p, hp⟩ | ⟨other, hother⟩
  · rw [h] at hp
    cases hp
  · rw [hother.ofBytes_eq] at h
    cases h
    exact hother

theorem size_compressed {x y : Nat} (h : OnCurve x y) : (affine x y h).compressed.size = 33 := by
  change ((if y % 2 = 0 then 2 else 3) :: toBigEndian 32 x).length = 33
  rw [List.length_cons, length_toBigEndian]

/-- Reading undoes writing and nothing else is read. What is read is the zero byte, or the tag 4
with two reduced coordinates that satisfy the equation of the curve; what is refused has another
length, as the compressed form has, or another tag, or coordinates that are not those of a point.
Each coordinate is written with all its leading zeros. -/
theorem encoding_strict :
    (∀ (bytes : ByteArray) (p : Point), ofBytes bytes = .ok p ↔ p.toBytes = bytes) ∧
      (∀ bytes : ByteArray, (∃ p, ofBytes bytes = .ok p) ↔
        bytes = ⟨#[0]⟩ ∨
          ∃ xs ys, Uncompressed bytes xs ys ∧ bigEndian xs < prime ∧ bigEndian ys < prime ∧
            bigEndian ys ^ 2 ≡ bigEndian xs ^ 3 + 7 [MOD prime]) ∧
      (∀ (bytes : ByteArray) (fault : CodecFault),
        ofBytes bytes = .error fault ↔ Refuses bytes fault) ∧
      (∀ (x y : Nat) (h : OnCurve x y),
        ofBytes (affine x y h).compressed = .error (.pointLength 33)) ∧
      ∀ (x y : Nat) (h : OnCurve x y), ∃ xs ys,
        Uncompressed (affine x y h).toBytes xs ys ∧ bigEndian xs = x ∧ bigEndian ys = y := by
  refine ⟨fun _ _ => ofBytes_eq_ok_iff, fun _ => ?_, fun _ _ => ofBytes_eq_error_iff, ?_, ?_⟩
  · simp only [exists_ofBytes_iff, onCurve_iff]
  · intro x y h
    have hsize := size_compressed h
    rw [← hsize]
    refine (Refuses.length ?_ ?_).ofBytes_eq
    · intro hzero
      rw [hzero] at hsize
      exact absurd hsize (by decide)
    · omega
  · intro x y h
    exact ⟨_, _, uncompressed_toBytes h, bigEndian_coordinate h.1, bigEndian_coordinate h.2.1⟩

end Point

end ThresholdSigning.Curve
