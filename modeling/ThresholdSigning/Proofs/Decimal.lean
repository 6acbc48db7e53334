import ThresholdSigning.Json.Reader
import ThresholdSigning.Text.Blank

namespace ThresholdSigning

theorem digit?_eq_some_iff {c : Char} {d : Nat} :
    digit? c = some d ↔ c.isDigit = true ∧ d = c.toNat - 48 := by
  have hdigit : ('0' ≤ c ∧ c ≤ '9') ↔ c.isDigit = true := by
    simp only [Char.isDigit, Bool.and_eq_true, decide_eq_true_eq]
    rfl
  unfold digit?
  split
  next h =>
    rw [Option.some.injEq, ← hdigit]
    exact ⟨fun heq => ⟨h, heq.symm⟩, fun heq => heq.2.symm⟩
  next h =>
    rw [← hdigit]
    exact ⟨fun heq => (by cases heq), fun heq => absurd heq.1 h⟩

theorem digit?_eq_none_iff {c : Char} : digit? c = none ↔ c.isDigit = false := by
  constructor
  · intro h
    cases hdigit : c.isDigit with
    | false => rfl
    | true => cases h.symm.trans (digit?_eq_some_iff.mpr ⟨hdigit, rfl⟩)
  · intro h
    cases hvalue : digit? c with
    | none => rfl
    | some d => cases h.symm.trans (digit?_eq_some_iff.mp hvalue).1

theorem toNat_of_isDigit {c : Char} (h : c.isDigit = true) : 48 ≤ c.toNat ∧ c.toNat ≤ 57 := by
  simp only [Char.isDigit, Bool.and_eq_true, decide_eq_true_eq, ge_iff_le,
    UInt32.le_iff_toNat_le] at h
  have hzero : ('0' : Char).val.toNat = 48 := rfl
  have hnine : ('9' : Char).val.toNat = 57 := rfl
  have hvalue : c.val.toNat = c.toNat := rfl
  omega

theorem ofDigitChars_cons (c : Char) (cs : List Char) (n : Nat) :
    Nat.ofDigitChars 10 (c :: cs) n = Nat.ofDigitChars 10 cs (10 * n + (c.toNat - 48)) := by
  rw [Nat.ofDigitChars_cons]
  rfl

theorem le_ofDigitChars (cs : List Char) (n : Nat) : n ≤ Nat.ofDigitChars 10 cs n := by
  induction cs generalizing n with
  | nil => exact Nat.le_refl n
  | cons c cs ih =>
    rw [ofDigitChars_cons]
    have hnext := ih (10 * n + (c.toNat - 48))
    omega

/-- Digits are appended until one is none, or the number takes more than 64 bits. -/
theorem appendDigits_eq_ok_iff {cs : List Char} {m n : Nat} (hm : m < wordLimit) :
    appendDigits m cs = .ok n ↔
      (∀ c ∈ cs, c.isDigit = true) ∧ n = Nat.ofDigitChars 10 cs m ∧ n < wordLimit := by
  induction cs generalizing m with
  | nil =>
    constructor
    · rintro ⟨⟩
      exact ⟨by simp, rfl, hm⟩
    · rintro ⟨-, rfl, -⟩
      rfl
  | cons c cs ih =>
    rw [appendDigits, List.forall_mem_cons, ofDigitChars_cons]
    cases hdigit : digit? c with
    | none =>
      have hnot := digit?_eq_none_iff.mp hdigit
      simp [hnot]
    | some d =>
      obtain ⟨hc, rfl⟩ := digit?_eq_some_iff.mp hdigit
      dsimp only
      split
      next hfits => simp only [ih hfits, hc, true_and]
      next hover =>
        constructor
        · rintro ⟨⟩
        · rintro ⟨-, rfl, hfits⟩
          have hgrown := le_ofDigitChars cs (10 * m + (c.toNat - 48))
          omega

/-- Decimal digits, at least one of them. -/
structure Digits (cs : List Char) : Prop where
  ne_nil : cs ≠ []
  isDigit : ∀ c ∈ cs, c.isDigit = true

/-- A number of 64 bits in decimal digits, which may have a plus sign. -/
inductive Numeral : List Char → Nat → Prop
  | plain {digits : List Char} (hdigits : Digits digits)
      (hfits : Nat.ofDigitChars 10 digits 0 < wordLimit) :
      Numeral digits (Nat.ofDigitChars 10 digits 0)
  | signed {digits : List Char} (hdigits : Digits digits)
      (hfits : Nat.ofDigitChars 10 digits 0 < wordLimit) :
      Numeral ('+' :: digits) (Nat.ofDigitChars 10 digits 0)

theorem parseWord_eq_ok_iff {cs : List Char} {n : Nat} : parseWord cs = .ok n ↔ Numeral cs n := by
  have hzero : 0 < wordLimit := by decide
  constructor
  · intro h
    unfold parseWord at h
    split at h
    next => cases h
    next => cases h
    next digits hsome =>
      obtain ⟨hdigits, rfl, hfits⟩ := (appendDigits_eq_ok_iff hzero).mp h
      refine .signed ⟨?_, hdigits⟩ hfits
      rintro rfl
      exact hsome rfl
    next hsome _ _ =>
      obtain ⟨hdigits, rfl, hfits⟩ := (appendDigits_eq_ok_iff hzero).mp h
      exact .plain ⟨hsome, hdigits⟩ hfits
  · intro h
    cases h with
    | plain hdigits hfits =>
      have hread := (appendDigits_eq_ok_iff hzero).mpr ⟨hdigits.isDigit, rfl, hfits⟩
      unfold parseWord
      split
      next => exact absurd rfl hdigits.ne_nil
      next => cases hdigits.isDigit '+' List.mem_cons_self
      next => cases hdigits.isDigit '+' List.mem_cons_self
      next => exact hread
    | @signed digits hdigits hfits =>
      have hread := (appendDigits_eq_ok_iff hzero).mpr ⟨hdigits.isDigit, rfl, hfits⟩
      cases digits with
      | nil => exact absurd rfl hdigits.ne_nil
      | cons c digits => exact hread

theorem Numeral.lt_wordLimit {cs : List Char} {n : Nat} (h : Numeral cs n) : n < wordLimit := by
  cases h with
  | plain _ hfits => exact hfits
  | signed _ hfits => exact hfits

theorem Numeral.isBlank_eq_false {cs : List Char} {n : Nat} (h : Numeral cs n) :
    cs ≠ [] ∧ ∀ c ∈ cs, isBlank c = false := by
  have hdigit {c : Char} (hc : c.isDigit = true) : isBlank c = false := by
    have := toNat_of_isDigit hc
    simp only [isBlank]
    simp
    omega
  cases h with
  | plain hdigits _ => exact ⟨hdigits.ne_nil, fun c hc => hdigit (hdigits.isDigit c hc)⟩
  | signed hdigits _ =>
    refine ⟨List.cons_ne_nil _ _, fun c hc => ?_⟩
    rcases List.mem_cons.mp hc with rfl | hc
    · decide
    · exact hdigit (hdigits.isDigit c hc)

end ThresholdSigning
