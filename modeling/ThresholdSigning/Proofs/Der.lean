import ThresholdSigning.Proofs.Normalization

namespace ThresholdSigning

namespace Der

variable {tag : UInt8} {bytes content rest : List UInt8} {n : Nat}

/-- The integer that some bytes denote, of which the first bit counts negatively. -/
def twosComplement : List UInt8 → Int
  | [] => 0
  | b :: bytes =>
    if 0x80 ≤ b then bigEndian (b :: bytes) - 256 ^ (bytes.length + 1) else bigEndian (b :: bytes)

/-- At least one byte, and no fewer bytes denote the same integer. -/
def Minimal (bytes : List UInt8) : Prop :=
  bytes ≠ [] ∧
    ∀ other, other ≠ [] → twosComplement other = twosComplement bytes →
      bytes.length ≤ other.length

theorem twosComplement_of_low {b : UInt8} (h : b < 0x80) (bytes : List UInt8) :
    twosComplement (b :: bytes) = bigEndian (b :: bytes) :=
  if_neg (UInt8.not_le.mpr h)

theorem twosComplement_neg {b : UInt8} (h : 0x80 ≤ b) (bytes : List UInt8) :
    twosComplement (b :: bytes) < 0 := by
  have hlt := bigEndian_lt (b :: bytes)
  rw [List.length_cons] at hlt
  rw [twosComplement, if_pos h]
  have hcast : (bigEndian (b :: bytes) : Int) < (256 : Int) ^ (bytes.length + 1) := by
    exact_mod_cast hlt
  omega

/-- The bytes of a natural number denote it without their first bit. -/
theorem lt_of_twosComplement {b : UInt8} (h : twosComplement (b :: bytes) = n) :
    b < 0x80 ∧ bigEndian (b :: bytes) = n ∧ n < 128 * 256 ^ bytes.length := by
  have hlow : b < 0x80 := by
    by_contra hhigh
    have hneg := twosComplement_neg (UInt8.not_lt.mp hhigh) bytes
    omega
  rw [twosComplement_of_low hlow] at h
  have hvalue : bigEndian (b :: bytes) = n := by exact_mod_cast h
  have hb : b.toNat < 128 := hlow
  have hrest := bigEndian_lt bytes
  have hle : b.toNat * 256 ^ bytes.length ≤ 127 * 256 ^ bytes.length :=
    Nat.mul_le_mul_right _ (by omega)
  refine ⟨hlow, hvalue, ?_⟩
  rw [← hvalue, bigEndian_cons]
  omega

/-- Bytes are minimal as soon as one byte less is too few for their number. -/
theorem minimal_of_le (hne : bytes ≠ []) (h : twosComplement bytes = n)
    (hle : ∀ k, bytes.length = k + 2 → 128 * 256 ^ k ≤ n) : Minimal bytes := by
  refine ⟨hne, fun other hother heq => ?_⟩
  cases other with
  | nil => exact absurd rfl hother
  | cons b other =>
    obtain ⟨-, -, hlt⟩ := lt_of_twosComplement (heq.trans h)
    by_contra hshort
    rw [List.length_cons] at hshort
    have hlong := hle (bytes.length - 2) (by omega)
    have hpow : 256 ^ other.length ≤ 256 ^ (bytes.length - 2) :=
      Nat.pow_le_pow_right (by decide) (by omega)
    omega

/-- A number has one minimal form. -/
theorem Minimal.unique {other : List UInt8} (h : Minimal bytes) (hother : Minimal other)
    (hvalue : twosComplement bytes = n) (hvalue' : twosComplement other = n) : bytes = other := by
  have hle := h.2 other hother.1 (hvalue'.trans hvalue.symm)
  have hle' := hother.2 bytes h.1 (hvalue.trans hvalue'.symm)
  have hlength : bytes.length = other.length := by omega
  apply bigEndian_inj hlength
  cases bytes with
  | nil => exact absurd rfl h.1
  | cons b bytes =>
    cases other with
    | nil => exact absurd rfl hother.1
    | cons c other =>
      obtain ⟨-, hbig, -⟩ := lt_of_twosComplement hvalue
      obtain ⟨-, hbig', -⟩ := lt_of_twosComplement hvalue'
      rw [hbig, hbig']

/-- Reads a natural number. Contents of no bytes, negative ones and those whose first nine bits are
all zero are refused. -/
def natural? : List UInt8 → Option Nat
  | [] => none
  | [b] => if b < 0x80 then some b.toNat else none
  | b :: c :: bytes =>
    if b < 0x80 ∧ (b = 0 → 0x80 ≤ c) then some (bigEndian (b :: c :: bytes)) else none

theorem minimal_of_natural? (h : natural? bytes = some n) :
    Minimal bytes ∧ twosComplement bytes = n := by
  unfold natural? at h
  split at h
  next => cases h
  next b =>
    split at h
    next hlow =>
      cases h
      have hvalue : twosComplement [b] = b.toNat := by
        rw [twosComplement_of_low hlow]
        simp [bigEndian]
      exact ⟨minimal_of_le (by simp) hvalue (by simp), hvalue⟩
    next => cases h
  next b c bytes =>
    split at h
    next hlow =>
      cases h
      have hvalue := twosComplement_of_low hlow.1 (c :: bytes)
      refine ⟨minimal_of_le (by simp) hvalue ?_, hvalue⟩
      intro k hk
      obtain rfl : bytes.length = k := by simpa using hk
      by_cases hb : b = 0
      · have hc : 128 ≤ c.toNat := hlow.2 hb
        have hmul : 128 * 256 ^ bytes.length ≤ c.toNat * 256 ^ bytes.length :=
          Nat.mul_le_mul_right _ hc
        rw [bigEndian_cons, bigEndian_cons]
        omega
      · have hle := pow_le_bigEndian hb (c :: bytes)
        rw [List.length_cons, Nat.pow_succ'] at hle
        omega
    next => cases h

theorem natural?_of_minimal (hminimal : Minimal bytes) (hvalue : twosComplement bytes = n) :
    natural? bytes = some n := by
  cases bytes with
  | nil => exact absurd rfl hminimal.1
  | cons b bytes =>
    obtain ⟨hlow, hbig, -⟩ := lt_of_twosComplement hvalue
    cases bytes with
    | nil =>
      have hsingle : b.toNat = n := by simpa [bigEndian] using hbig
      rw [natural?, if_pos hlow, hsingle]
    | cons c bytes =>
      have hneeded : b = 0 → 0x80 ≤ c := by
        rintro rfl
        by_contra hspare
        have hc := UInt8.not_le.mp hspare
        have hsame : twosComplement (c :: bytes) = twosComplement (0 :: c :: bytes) := by
          rw [twosComplement_of_low hc, twosComplement_of_low (by decide), bigEndian_zero_cons]
        have hle := hminimal.2 (c :: bytes) (by simp) hsame
        simp at hle
      rw [natural?, if_pos ⟨hlow, hneeded⟩, hbig]

/-- What the reader refuses of the contents of an integer is what is negative or not minimal. -/
theorem natural?_eq_some_iff :
    natural? bytes = some n ↔ Minimal bytes ∧ twosComplement bytes = n :=
  ⟨minimal_of_natural?, fun h => natural?_of_minimal h.1 h.2⟩

theorem bigEndian_dropWhile (bytes : List UInt8) :
    bigEndian (bytes.dropWhile (· = 0)) = bigEndian bytes := by
  induction bytes with
  | nil => rfl
  | cons b bytes ih =>
    by_cases hb : b = 0
    · rw [List.dropWhile_cons_of_pos (by simpa using hb), ih, hb, bigEndian_zero_cons]
    · rw [List.dropWhile_cons_of_neg (by simpa using hb)]

theorem natural?_derInteger (bytes : List UInt8) :
    natural? (derInteger bytes) = some (bigEndian bytes) := by
  have hvalue := bigEndian_dropWhile bytes
  unfold derInteger
  split
  next hzero =>
    rw [hzero] at hvalue
    rw [← hvalue]
    rfl
  next b rest hdrop =>
    rw [hdrop] at hvalue
    have hb : b ≠ 0 := by
      have hhead := List.head?_dropWhile_not (fun b : UInt8 => decide (b = 0)) bytes
      rw [hdrop] at hhead
      simpa using hhead
    split
    next hhigh =>
      rw [natural?, if_pos ⟨by decide, fun _ => hhigh⟩, bigEndian_zero_cons, hvalue]
    next hlow =>
      have hlow := UInt8.not_le.mp hlow
      cases rest with
      | nil =>
        have hsingle : b.toNat = bigEndian bytes := by simpa [bigEndian] using hvalue
        rw [natural?, if_pos hlow, hsingle]
      | cons c rest => rw [natural?, if_pos ⟨hlow, fun h => absurd h hb⟩, hvalue]

theorem length_derInteger_le (bytes : List UInt8) :
    (derInteger bytes).length ≤ bytes.length + 1 := by
  have hdrop := (List.dropWhile_sublist (l := bytes) fun b => decide (b = 0)).length_le
  unfold derInteger
  split
  next => simp
  next b rest hrest =>
    rw [hrest, List.length_cons] at hdrop
    split
    next => simp only [List.length_cons]; omega
    next => simp only [List.length_cons]; omega

/-- The contents of an integer in the reader's sense are those that the encoding writes. -/
theorem natural?_eq_some_toNat_iff {w : BitVec 256} :
    natural? bytes = some w.toNat ↔ bytes = derInteger (wordBytes w) := by
  have hwritten := natural?_derInteger (wordBytes w)
  rw [bigEndian_wordBytes] at hwritten
  constructor
  · intro h
    obtain ⟨hminimal, hvalue⟩ := natural?_eq_some_iff.mp h
    obtain ⟨hminimal', hvalue'⟩ := natural?_eq_some_iff.mp hwritten
    exact hminimal.unique hminimal' hvalue hvalue'
  · intro h
    rw [h, hwritten]

/-- Reads a length and gives what follows it. Below 128 a length is its own byte; above, there is
first the number of its bytes, of which the first is not zero. -/
def readLength? : List UInt8 → Option (Nat × List UInt8)
  | [] => none
  | b :: bytes =>
    if b < 0x80 then some (b.toNat, bytes)
    else
      let digits := bytes.take (b.toNat - 0x80)
      if digits.length = b.toNat - 0x80 ∧ digits.head? ≠ some 0 ∧ 0x80 ≤ bigEndian digits then
        some (bigEndian digits, bytes.drop (b.toNat - 0x80))
      else none

/-- Reads an element with a given tag, and gives its contents and what follows. -/
def readElement? (tag : UInt8) : List UInt8 → Option (List UInt8 × List UInt8)
  | [] => none
  | b :: bytes =>
    if b = tag then
      match readLength? bytes with
      | none => none
      | some (length, bytes) => if length ≤ bytes.length then some (bytes.splitAt length) else none
    else none

def readInteger? (bytes : List UInt8) : Option (Nat × List UInt8) :=
  match readElement? 0x02 bytes with
  | none => none
  | some (content, rest) => (natural? content).map fun n => (n, rest)

/-- Reads a sequence of two natural numbers, with nothing after them and nothing after it. -/
def readPair? (bytes : ByteArray) : Option (Nat × Nat) :=
  match readElement? 0x30 bytes.data.toList with
  | some (body, []) =>
    match readInteger? body with
    | some (r, body) =>
      match readInteger? body with
      | some (s, []) => some (r, s)
      | _ => none
    | none => none
  | _ => none

/-- An element with contents of fewer than 128 bytes. -/
def element (tag : UInt8) (content : List UInt8) : List UInt8 :=
  tag :: UInt8.ofNat content.length :: content

theorem readLength?_eq_some_iff (hn : n < 0x80) :
    readLength? bytes = some (n, rest) ↔ bytes = UInt8.ofNat n :: rest := by
  have hbyte : (UInt8.ofNat n).toNat = n := by
    rw [toNat_byte]
    omega
  constructor
  · intro h
    unfold readLength? at h
    split at h
    next => cases h
    next b bytes =>
      split at h
      next =>
        cases h
        rw [UInt8.ofNat_toNat]
      next =>
        dsimp only at h
        split at h
        next hlong =>
          rw [Option.some.injEq, Prod.mk.injEq] at h
          have hlarge := hlong.2.2
          omega
        next => cases h
  · rintro rfl
    have hlow : UInt8.ofNat n < 0x80 := UInt8.lt_iff_toNat_lt.mpr (by rw [hbyte]; exact hn)
    rw [readLength?, if_pos hlow, hbyte]

theorem readElement?_eq_some_iff (hshort : content.length < 0x80) :
    readElement? tag bytes = some (content, rest) ↔ bytes = element tag content ++ rest := by
  constructor
  · intro h
    unfold readElement? at h
    split at h
    next => cases h
    next b bytes =>
      split at h
      next hb =>
        split at h
        next => cases h
        next length after hlength =>
          split at h
          next hle =>
            rw [List.splitAt_eq, Option.some.injEq, Prod.mk.injEq] at h
            obtain ⟨hcontent, hrest⟩ := h
            have hcount : content.length = length := by
              rw [← hcontent, List.length_take, Nat.min_eq_left hle]
            have hafter : after = content ++ rest := by
              rw [← hcontent, ← hrest, List.take_append_drop]
            rw [← hcount] at hlength
            rw [hb, (readLength?_eq_some_iff hshort).mp hlength, hafter]
            rfl
          next => cases h
      next => cases h
  · rintro rfl
    have hlength : readLength? (UInt8.ofNat content.length :: (content ++ rest)) =
        some (content.length, content ++ rest) := (readLength?_eq_some_iff hshort).mpr rfl
    have hle : content.length ≤ (content ++ rest).length := by
      rw [List.length_append]
      omega
    simp only [element, List.cons_append, readElement?, hlength, if_true, if_pos hle,
      List.splitAt_eq, List.take_left, List.drop_left]

theorem length_derInteger_lt (w : BitVec 256) : (derInteger (wordBytes w)).length ≤ 33 := by
  have hle := length_derInteger_le (wordBytes w)
  rwa [wordBytes, length_toBigEndian] at hle

theorem readInteger?_eq_some_iff {w : BitVec 256} :
    readInteger? bytes = some (w.toNat, rest) ↔
      bytes = element 0x02 (derInteger (wordBytes w)) ++ rest := by
  have hshort : (derInteger (wordBytes w)).length < 0x80 :=
    Nat.lt_of_le_of_lt (length_derInteger_lt w) (by decide)
  rw [← readElement?_eq_some_iff hshort]
  unfold readInteger?
  constructor
  · intro h
    split at h
    next => cases h
    next content after helement =>
      obtain ⟨n, hn, heq⟩ := Option.map_eq_some_iff.mp h
      cases heq
      rw [helement, natural?_eq_some_toNat_iff.mp hn]
  · intro h
    simp only [h, natural?_eq_some_toNat_iff.mpr rfl, Option.map_some]

end Der

namespace Signature

open Der

/-- The two integers of a signature, one after the other. -/
def derBody (sig : Signature) : List UInt8 :=
  element 0x02 (derInteger (wordBytes sig.r)) ++ element 0x02 (derInteger (wordBytes sig.s))

theorem length_derBody_le (sig : Signature) : sig.derBody.length ≤ 70 := by
  have hr := length_derInteger_lt sig.r
  have hs := length_derInteger_lt sig.s
  simp only [derBody, element, List.length_append, List.length_cons]
  omega

theorem toList_toDer (sig : Signature) : sig.toDer.data.toList = element 0x30 sig.derBody := by
  have hlength : sig.derBody.length = (derInteger (wordBytes sig.r)).length +
      (derInteger (wordBytes sig.s)).length + 4 := by
    simp only [derBody, element, List.length_append, List.length_cons]
    omega
  rw [element, hlength]
  rfl

/-- The strict reader takes the encoding of a signature, and no other bytes, for its two words. -/
theorem readPair?_eq_some_iff {sig : Signature} {bytes : ByteArray} :
    readPair? bytes = some (sig.r.toNat, sig.s.toNat) ↔ bytes = sig.toDer := by
  have hshort : sig.derBody.length < 0x80 :=
    Nat.lt_of_le_of_lt sig.length_derBody_le (by decide)
  constructor
  · intro h
    unfold readPair? at h
    split at h
    next body hbody =>
      split at h
      next r after hr =>
        split at h
        next s hs =>
          rw [Option.some.injEq, Prod.mk.injEq] at h
          obtain ⟨rfl, rfl⟩ := h
          rw [readInteger?_eq_some_iff] at hr hs
          rw [List.append_nil] at hs
          have heq : body = sig.derBody := by rw [hr, hs, derBody]
          rw [heq, readElement?_eq_some_iff hshort, List.append_nil, ← toList_toDer] at hbody
          exact bytes_ext hbody
        next => cases h
      next => cases h
    next => cases h
  · rintro rfl
    have hbody : readElement? 0x30 sig.toDer.data.toList = some (sig.derBody, []) := by
      rw [readElement?_eq_some_iff hshort, toList_toDer, List.append_nil]
    have hr : readInteger? sig.derBody =
        some (sig.r.toNat, element 0x02 (derInteger (wordBytes sig.s))) :=
      readInteger?_eq_some_iff.mpr rfl
    have hs : readInteger? (element 0x02 (derInteger (wordBytes sig.s))) =
        some (sig.s.toNat, []) :=
      readInteger?_eq_some_iff.mpr (List.append_nil _).symm
    simp only [readPair?, hbody, hr, hs]

theorem toDer_inj {sig other : Signature} (h : other.toDer = sig.toDer) :
    other.r = sig.r ∧ other.s = sig.s := by
  have hread := readPair?_eq_some_iff.mpr h
  rw [readPair?_eq_some_iff.mpr rfl, Option.some.injEq, Prod.mk.injEq] at hread
  exact ⟨BitVec.eq_of_toNat_eq hread.1, BitVec.eq_of_toNat_eq hread.2⟩

/-- The encoding is a sequence of one length byte and of the two words, each in the fewest bytes
that denote it. The strict reader gives the words back and takes no other bytes for them, so that
two signatures have one encoding exactly if they have both words in common. -/
theorem toDer_minimal_and_lossless (sig : Signature) :
    (∃ (length rLength sLength : UInt8) (body r s : List UInt8),
      sig.toDer = ⟨⟨0x30 :: length :: body⟩⟩ ∧ length.toNat = body.length ∧ body.length ≤ 70 ∧
        body = 0x02 :: rLength :: r ++ 0x02 :: sLength :: s ∧
        rLength.toNat = r.length ∧ sLength.toNat = s.length ∧
        Minimal r ∧ twosComplement r = bigEndian (wordBytes sig.r) ∧
        Minimal s ∧ twosComplement s = bigEndian (wordBytes sig.s)) ∧
      (∀ bytes, readPair? bytes =
          some (bigEndian (wordBytes sig.r), bigEndian (wordBytes sig.s)) ↔
        bytes = sig.toDer) ∧
      ∀ other : Signature, other.toDer = sig.toDer ↔ other.r = sig.r ∧ other.s = sig.s := by
  have hr := length_derInteger_lt sig.r
  have hs := length_derInteger_lt sig.s
  have hbody := sig.length_derBody_le
  have hbyte (n : Nat) (hn : n ≤ 70) : (UInt8.ofNat n).toNat = n := by
    rw [toNat_byte]
    omega
  obtain ⟨hrMinimal, hrValue⟩ := minimal_of_natural? (natural?_derInteger (wordBytes sig.r))
  obtain ⟨hsMinimal, hsValue⟩ := minimal_of_natural? (natural?_derInteger (wordBytes sig.s))
  refine ⟨⟨_, _, _, sig.derBody, _, _, ?_, hbyte _ hbody, hbody, rfl, hbyte _ (by omega),
    hbyte _ (by omega), hrMinimal, hrValue, hsMinimal, hsValue⟩, fun bytes => ?_, fun other => ?_⟩
  · exact bytes_ext sig.toList_toDer
  · rw [bigEndian_wordBytes, bigEndian_wordBytes]
    exact readPair?_eq_some_iff
  · constructor
    · exact toDer_inj
    · rintro ⟨hr, hs⟩
      simp only [toDer, hr, hs]

/-- A zero byte that is not needed in front of a number is refused. -/
example : readPair? ⟨#[0x30, 7, 2, 2, 0, 1, 2, 1, 1]⟩ = none ∧
    readPair? ⟨#[0x30, 6, 2, 1, 1, 2, 1, 1]⟩ = some (1, 1) := by decide

end Signature

end ThresholdSigning
