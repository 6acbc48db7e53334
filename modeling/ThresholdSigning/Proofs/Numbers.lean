import ThresholdSigning.Proofs.Key

namespace ThresholdSigning

theorem bigEndian_dropLeadingZeros (bytes : List UInt8) :
    bigEndian (dropLeadingZeros bytes) = bigEndian bytes := by
  fun_induction dropLeadingZeros bytes with
  | case1 => rfl
  | case2 b => rfl
  | case3 c bytes ih => rw [ih, bigEndian_zero_cons]
  | case4 b c bytes hb => rfl

/-- A canonical form is that of zero, or begins with another digit. -/
theorem cases_of_isCanonical {bytes : List UInt8} (h : isCanonical bytes = true) :
    bytes = [0] ∨ ∃ b rest, b ≠ 0 ∧ bytes = b :: rest := by
  unfold isCanonical at h
  split at h
  next => cases h
  next b =>
    by_cases hb : b = 0
    · exact Or.inl (by rw [hb])
    · exact Or.inr ⟨b, [], hb, rfl⟩
  next b c rest => exact Or.inr ⟨b, c :: rest, by simpa using h, rfl⟩

/-- What is not canonical is empty, or has a zero in front of something. -/
theorem not_isCanonical_iff {bytes : List UInt8} :
    ¬ isCanonical bytes = true ↔ bytes = [] ∨ ∃ b rest, bytes = 0 :: b :: rest := by
  unfold isCanonical
  split
  next => simp
  next => simp
  next b c rest => simp

namespace BigNum

variable {m n : BigNum} {length : Nat} {bytes other out : ByteArray} {fault : CodecFault}

theorem eq_of_bytes (h : m.bytes = n.bytes) : m = n := by
  cases m
  cases n
  cases h
  rfl

theorem isZero_iff : n.isZero = true ↔ n.value = 0 := by
  constructor
  · intro h
    have hbytes : n.bytes = ⟨#[0]⟩ := of_decide_eq_true h
    rw [value, hbytes]
    rfl
  · intro h
    rcases cases_of_isCanonical n.canonical with hzero | ⟨b, rest, hb, hbytes⟩
    · exact decide_eq_true (bytes_ext hzero)
    · have hle := pow_le_bigEndian hb rest
      have hpos : 0 < 256 ^ rest.length := Nat.pow_pos (by decide)
      rw [value, hbytes] at h
      omega

/-- The digits of a number do not begin with zero. -/
theorem digits_cases (n : BigNum) :
    (n.digits = [] ∧ n.bytes.data.toList = [0]) ∨
      ∃ b rest, b ≠ 0 ∧ n.digits = b :: rest ∧ n.bytes.data.toList = b :: rest := by
  unfold digits
  split
  next h =>
    have hbytes : n.bytes = ⟨#[0]⟩ := of_decide_eq_true h
    exact Or.inl ⟨rfl, congrArg (·.data.toList) hbytes⟩
  next h =>
    rcases cases_of_isCanonical n.canonical with hzero | ⟨b, rest, hb, hbytes⟩
    · exact absurd (decide_eq_true (bytes_ext hzero)) h
    · exact Or.inr ⟨b, rest, hb, hbytes, hbytes⟩

theorem bigEndian_digits (n : BigNum) : bigEndian n.digits = n.value := by
  rcases n.digits_cases with ⟨hdigits, hbytes⟩ | ⟨b, rest, -, hdigits, hbytes⟩
  · rw [hdigits, value, hbytes]
    rfl
  · rw [hdigits, value, hbytes]

/-- A number has as many digits as it needs. -/
theorem length_digits_le_iff : n.digits.length ≤ length ↔ n.value < 256 ^ length := by
  rw [← bigEndian_digits]
  constructor
  · intro h
    exact Nat.lt_of_lt_of_le (bigEndian_lt n.digits) (Nat.pow_le_pow_right (by decide) h)
  · intro h
    rcases n.digits_cases with ⟨hdigits, -⟩ | ⟨b, rest, hb, hdigits, -⟩
    · rw [hdigits]
      exact Nat.zero_le length
    · rw [hdigits] at h ⊢
      have hlt := Nat.lt_of_le_of_lt (pow_le_bigEndian hb rest) h
      exact (Nat.pow_lt_pow_iff_right (by decide)).mp hlt

theorem eq_of_digits (h : m.digits = n.digits) : m = n := by
  apply eq_of_bytes
  apply bytes_ext
  rcases m.digits_cases with ⟨hm, hbytes⟩ | ⟨b, rest, -, hm, hbytes⟩
  · rcases n.digits_cases with ⟨-, hbytes'⟩ | ⟨c, rest', -, hn, -⟩
    · rw [hbytes, hbytes']
    · rw [hm, hn] at h
      cases h
  · rcases n.digits_cases with ⟨hn, -⟩ | ⟨c, rest', -, hn, hbytes'⟩
    · rw [hm, hn] at h
      cases h
    · rw [hbytes, hbytes', ← hm, ← hn, h]

theorem value_injective : Function.Injective value := by
  intro m n h
  have hle : m.digits.length ≤ n.digits.length := by
    rw [length_digits_le_iff, h, ← length_digits_le_iff]
  have hge : n.digits.length ≤ m.digits.length := by
    rw [length_digits_le_iff, ← h, ← length_digits_le_iff]
  apply eq_of_digits
  apply bigEndian_inj (Nat.le_antisymm hle hge)
  rw [bigEndian_digits, bigEndian_digits, h]

theorem value_ofBytes (bytes : ByteArray) : (ofBytes bytes).value = bigEndian bytes.data.toList :=
  bigEndian_dropLeadingZeros bytes.data.toList

theorem value_surjective : Function.Surjective value := by
  intro n
  refine ⟨ofBytes ⟨⟨toBigEndian n n⟩⟩, ?_⟩
  rw [value_ofBytes, bigEndian_toBigEndian, Nat.mod_eq_of_lt (Nat.lt_pow_self (by decide))]

theorem value_ofWord (n : UInt64) : (ofWord n.toNat).value = n.toNat := by
  have hlt : n.toNat < 256 ^ 8 := n.toNat_lt
  rw [ofWord, value_ofBytes, bigEndian_toBigEndian, Nat.mod_eq_of_lt hlt]

theorem ofBytes_eq_iff : ofBytes bytes = n ↔ bigEndian bytes.data.toList = n.value := by
  rw [← value_ofBytes]
  exact value_injective.eq_iff.symm

theorem ofCanonical_eq_ok_iff_ofBytes :
    ofCanonical bytes = .ok n ↔ bytes = (ofBytes bytes).bytes ∧ n = ofBytes bytes := by
  rw [ofCanonical_eq_ok_iff]
  constructor
  · rintro rfl
    have hsame : ofBytes n.bytes = n := ofBytes_eq_iff.mpr rfl
    rw [hsame]
    exact ⟨rfl, rfl⟩
  · rintro ⟨hbytes, rfl⟩
    exact hbytes.symm

theorem ofCanonical_eq_error_iff :
    ofCanonical bytes = .error fault ↔
      bytes = .empty ∧ fault = .emptyInteger ∨
        (∃ b rest, bytes.data.toList = 0 :: b :: rest) ∧ fault = .leadingZero := by
  have hempty : bytes = .empty ↔ bytes.data.toList = [] :=
    ⟨fun h => congrArg (·.data.toList) h, fun h => bytes_ext h⟩
  rw [hempty]
  unfold ofCanonical
  by_cases h : isCanonical bytes.data.toList = true
  · rw [dif_pos h]
    constructor
    · intro hok
      cases hok
    · rintro (⟨hbytes, -⟩ | ⟨hbytes, -⟩)
      · exact absurd h (not_isCanonical_iff.mpr (Or.inl hbytes))
      · exact absurd h (not_isCanonical_iff.mpr (Or.inr hbytes))
  · rw [dif_neg h]
    rcases not_isCanonical_iff.mp h with hbytes | ⟨b, rest, hbytes⟩
    · have hsize : bytes.size = 0 := congrArg List.length hbytes
      rw [if_pos hsize]
      constructor
      · rintro ⟨⟩
        exact Or.inl ⟨hbytes, rfl⟩
      · rintro (⟨-, rfl⟩ | ⟨⟨b, rest, hlong⟩, -⟩)
        · rfl
        · rw [hbytes] at hlong
          cases hlong
    · have hsize : bytes.size = rest.length + 2 := congrArg List.length hbytes
      rw [if_neg (by omega)]
      constructor
      · rintro ⟨⟩
        exact Or.inr ⟨⟨b, rest, hbytes⟩, rfl⟩
      · rintro (⟨hnone, -⟩ | ⟨-, rfl⟩)
        · rw [hbytes] at hnone
          cases hnone
        · rfl

/-- Padding gives the one form of a width that denotes the number. -/
theorem padded_eq_some_iff :
    n.padded length = some out ↔ out.size = length ∧ bigEndian out.data.toList = n.value := by
  have hpads {out : ByteArray} (h : n.padded length = some out) :
      out.size = length ∧ bigEndian out.data.toList = n.value := by
    unfold padded at h
    split at h
    next hle =>
      cases h
      refine ⟨?_, ?_⟩
      · change (List.replicate (length - n.digits.length) 0 ++ n.digits).length = length
        rw [List.length_append, List.length_replicate]
        omega
      · rw [bigEndian_replicate_append, bigEndian_digits]
    next => cases h
  refine ⟨hpads, ?_⟩
  rintro ⟨hsize, hvalue⟩
  have hlength : out.data.toList.length = length := hsize
  have hle : n.digits.length ≤ length := by
    rw [length_digits_le_iff, ← hvalue, ← hlength]
    exact bigEndian_lt out.data.toList
  obtain ⟨padding, hpadding⟩ : ∃ padding, n.padded length = some padding := ⟨_, if_pos hle⟩
  obtain ⟨hsize', hvalue'⟩ := hpads hpadding
  have hsame : padding = out := by
    apply bytes_ext
    exact bigEndian_inj (hsize'.trans hsize.symm) (hvalue'.trans hvalue.symm)
  rw [hpadding, hsame]

/-- Forms and natural numbers correspond to each other. Any bytes are brought to the form of what
they denote; as a form already are read exactly those that this does not change, and what is refused
is empty or begins with a redundant zero. Zero is the number zero, and a number has an encoding of a
given width, of which it is what the bytes denote, exactly if it fits. -/
theorem canonical_form :
    Function.Bijective value ∧
      (∀ x : ByteArray, (ofBytes x).value = bigEndian x.data.toList) ∧
      (∀ x y : ByteArray,
        ofBytes x = ofBytes y ↔ bigEndian x.data.toList = bigEndian y.data.toList) ∧
      (∀ (x : ByteArray) (n : BigNum),
        ofCanonical x = .ok n ↔ x = (ofBytes x).bytes ∧ n = ofBytes x) ∧
      (∀ (x : ByteArray) (fault : CodecFault),
        ofCanonical x = .error fault ↔
          x = .empty ∧ fault = .emptyInteger ∨
            (∃ b rest, x.data.toList = 0 :: b :: rest) ∧ fault = .leadingZero) ∧
      (∀ n : UInt64, (ofWord n.toNat).value = n.toNat) ∧
      (∀ n : BigNum, n.isZero = true ↔ n.value = 0) ∧
      (∀ (n : BigNum) (length : Nat),
        (∃ out, n.padded length = some out) ↔ n.value < 256 ^ length) ∧
      (∀ (n : BigNum) (length : Nat) (out : ByteArray), n.padded length = some out ↔
        out.size = length ∧ bigEndian out.data.toList = n.value) ∧
      ∀ (n : BigNum) (length : Nat) (out : ByteArray), n.padded length = some out →
        ofBytes out = n := by
  refine ⟨⟨value_injective, value_surjective⟩, value_ofBytes, ?_,
    fun _ _ => ofCanonical_eq_ok_iff_ofBytes, fun _ _ => ofCanonical_eq_error_iff, value_ofWord,
    fun _ => isZero_iff, ?_, fun _ _ _ => padded_eq_some_iff, ?_⟩
  · intro x y
    rw [ofBytes_eq_iff, value_ofBytes]
  · intro n length
    rw [← length_digits_le_iff]
    unfold padded
    split
    next hle => simp [hle]
    next hlong => simp [hlong]
  · intro n length out hpadded
    exact ofBytes_eq_iff.mpr (padded_eq_some_iff.mp hpadded).2

/-- Zero has one byte of its own, and none when it is padded. -/
example : zero.bytes = ⟨#[0]⟩ ∧ zero.padded 0 = some .empty := by decide

end BigNum

end ThresholdSigning
