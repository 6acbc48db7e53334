import ThresholdSigning.Proofs.Decimal

namespace ThresholdSigning

/-- A run of one kind of elements ends where another kind follows, or nothing. -/
theorem takeWhile_append_of_head {α : Type} {p : α → Bool} {xs ys : List α}
    (hxs : ∀ x ∈ xs, p x = true) (hys : ∀ y ∈ ys.head?, p y = false) :
    (xs ++ ys).takeWhile p = xs ∧ (xs ++ ys).dropWhile p = ys := by
  rw [List.takeWhile_append_of_pos hxs, List.dropWhile_append_of_pos hxs]
  cases ys with
  | nil => simp
  | cons y ys =>
    have hy := hys y rfl
    simp [hy]

namespace Json

/-- Blanks as they may stand between the parts of a text. -/
def Spaces (cs : List Char) : Prop := ∀ c ∈ cs, isSpace c = true

theorem spaces_nil : Spaces [] := fun c hc => by cases hc

variable {s rest : List Char}

theorem skipSpaces_append {left : List Char} (h : Spaces left) (s : List Char) :
    skipSpaces (left ++ s) = skipSpaces s :=
  List.dropWhile_append_of_pos h

theorem skipSpaces_cons {c : Char} (h : isSpace c = false) (s : List Char) :
    skipSpaces (c :: s) = c :: s :=
  List.dropWhile_cons_of_neg (by simp [h])

theorem skipSpaces_append_cons {left : List Char} {c : Char} (h : Spaces left)
    (hc : isSpace c = false) (s : List Char) : skipSpaces (left ++ c :: s) = c :: s := by
  rw [skipSpaces_append h, skipSpaces_cons hc]

theorem exists_spaces (s : List Char) : ∃ left, Spaces left ∧ s = left ++ skipSpaces s :=
  ⟨s.takeWhile isSpace, List.all_eq_true.mp List.all_takeWhile,
    List.takeWhile_append_dropWhile.symm⟩

theorem skipSpaces_skipSpaces (s : List Char) : skipSpaces (skipSpaces s) = skipSpaces s := by
  induction s with
  | nil => rfl
  | cons c s ih =>
    cases hspace : isSpace c with
    | false => rw [skipSpaces_cons hspace, skipSpaces_cons hspace]
    | true =>
      have hskip : skipSpaces (c :: s) = skipSpaces s := List.dropWhile_cons_of_pos hspace
      rw [hskip, ih]

theorem skipSpaces_eq_nil_iff : skipSpaces s = [] ↔ Spaces s := by
  constructor
  · intro h
    obtain ⟨left, hleft, hs⟩ := exists_spaces s
    rwa [hs, h, List.append_nil]
  · intro h
    rw [← List.append_nil s, skipSpaces_append h]
    rfl

theorem isDigit_eq (c : Char) : isDigit c = c.isDigit := by
  unfold isDigit
  cases h : c.isDigit with
  | false => rw [digit?_eq_none_iff.mpr h]; rfl
  | true => rw [digit?_eq_some_iff.mpr ⟨h, rfl⟩]; rfl

/-- A natural number in digits, without a redundant zero in front. -/
structure Whole (n : Nat) (cs : List Char) : Prop where
  digits : Digits cs
  value : n = Nat.ofDigitChars 10 cs 0
  zero : cs.head? = some '0' → cs = ['0']

/-- Whether there is a fraction, and its text. -/
inductive Fraction : Bool → List Char → Prop
  | absent : Fraction false []
  | present {digits : List Char} (hdigits : Digits digits) : Fraction true ('.' :: digits)

inductive Sign : List Char → Prop
  | absent : Sign []
  | plus : Sign ['+']
  | minus : Sign ['-']

/-- Whether there is an exponent, and its text. -/
inductive Exponent : Bool → List Char → Prop
  | absent : Exponent false []
  | present {c : Char} {sign digits : List Char} (hletter : c = 'e' ∨ c = 'E')
      (hsign : Sign sign) (hdigits : Digits digits) : Exponent true (c :: (sign ++ digits))

/-- A number without a sign: a natural one if it has neither a fraction nor an exponent. -/
inductive Unsigned : Option Nat → List Char → Prop
  | mk {n : Nat} {hasFraction hasExponent : Bool} {whole fraction exponent : List Char}
      (hwhole : Whole n whole) (hfraction : Fraction hasFraction fraction)
      (hexponent : Exponent hasExponent exponent) :
      Unsigned (if hasFraction || hasExponent then none else some n)
        (whole ++ (fraction ++ exponent))

inductive Number : Option Nat → List Char → Prop
  | unsigned {n : Option Nat} {cs : List Char} (h : Unsigned n cs) : Number n cs
  | negative {n : Option Nat} {cs : List Char} (h : Unsigned n cs) : Number none ('-' :: cs)

/-- What follows does not go on with a number. -/
def Stops (s : List Char) : Prop :=
  ∀ c ∈ s.head?, c.isDigit = false ∧ c ≠ '.' ∧ c ≠ 'e' ∧ c ≠ 'E'

theorem takeWhile_digits {digits : List Char} (h : Digits digits)
    (hstop : ∀ c ∈ s.head?, c.isDigit = false) :
    (digits ++ s).takeWhile isDigit = digits ∧ (digits ++ s).dropWhile isDigit = s :=
  takeWhile_append_of_head (fun c hc => (isDigit_eq c).trans (h.isDigit c hc))
    fun c hc => (isDigit_eq c).trans (hstop c hc)

theorem foldl_digits {cs : List Char} (h : ∀ c ∈ cs, c.isDigit = true) (m : Nat) :
    cs.foldl (fun n c => 10 * n + (digit? c).getD 0) m = Nat.ofDigitChars 10 cs m := by
  induction cs generalizing m with
  | nil => rfl
  | cons c cs ih =>
    obtain ⟨hc, hcs⟩ := List.forall_mem_cons.mp h
    rw [List.foldl_cons, ofDigitChars_cons, digit?_eq_some_iff.mpr ⟨hc, rfl⟩, ih hcs]
    rfl

theorem natural?_eq_some_iff {cs : List Char} {n : Nat} (h : ∀ c ∈ cs, c.isDigit = true) :
    natural? cs = some n ↔ Whole n cs := by
  unfold natural?
  split
  next => exact ⟨fun hn => (by cases hn), fun hn => absurd rfl hn.digits.ne_nil⟩
  next => exact ⟨fun hn => (by cases hn), fun hn => (by cases hn.zero rfl)⟩
  next hsome hzero =>
    rw [foldl_digits h, Option.some.injEq]
    constructor
    · rintro rfl
      refine ⟨⟨hsome, h⟩, rfl, fun hhead => ?_⟩
      obtain ⟨tail, rfl⟩ := List.head?_eq_some_iff.mp hhead
      cases tail with
      | nil => rfl
      | cons c tail => exact absurd rfl (hzero c tail)
    · exact fun hn => hn.value.symm

/-- The digits at the front of a text, and what follows them. -/
theorem span_digits (s : List Char) :
    (∀ c ∈ s.takeWhile isDigit, c.isDigit = true) ∧
      s = s.takeWhile isDigit ++ s.dropWhile isDigit :=
  ⟨fun c hc => (isDigit_eq c).symm.trans (List.all_eq_true.mp List.all_takeWhile c hc),
    List.takeWhile_append_dropWhile.symm⟩

theorem skipFraction_append {hasFraction : Bool} {fraction : List Char}
    (h : Fraction hasFraction fraction)
    (hstop : ∀ c ∈ s.head?, c.isDigit = false ∧ c ≠ '.') :
    skipFraction (fraction ++ s) = some (hasFraction, s) := by
  cases h with
  | absent =>
    rw [List.nil_append]
    unfold skipFraction
    split
    next => exact absurd rfl (hstop '.' rfl).2
    next => rfl
  | @present digits hdigits =>
    obtain ⟨htake, hdrop⟩ := takeWhile_digits hdigits fun c hc => (hstop c hc).1
    rw [List.cons_append, skipFraction, htake, hdrop]
    simp [hdigits.ne_nil]

theorem exists_fraction {hasFraction : Bool} (h : skipFraction s = some (hasFraction, rest)) :
    ∃ fraction, Fraction hasFraction fraction ∧ s = fraction ++ rest := by
  unfold skipFraction at h
  split at h
  next s =>
    split at h
    next => cases h
    next hsome =>
      cases h
      obtain ⟨hdigits, hspan⟩ := span_digits s
      refine ⟨_, .present ⟨by simpa using hsome, hdigits⟩, ?_⟩
      rw [List.cons_append, ← hspan]
  next =>
    cases h
    exact ⟨[], .absent, rfl⟩

theorem skipSign_append {sign digits : List Char} (h : Sign sign) (hdigits : Digits digits) :
    skipSign (sign ++ digits ++ s) = digits ++ s := by
  cases h with
  | absent =>
    obtain ⟨c, cs, rfl⟩ := List.exists_cons_of_ne_nil hdigits.ne_nil
    have hc := hdigits.isDigit c List.mem_cons_self
    simp only [List.nil_append, List.cons_append]
    unfold skipSign
    split
    next heq =>
      obtain ⟨rfl, -⟩ := List.cons.inj heq
      cases hc
    next heq =>
      obtain ⟨rfl, -⟩ := List.cons.inj heq
      cases hc
    next => rfl
  | plus => rfl
  | minus => rfl

theorem exists_sign (s : List Char) : ∃ sign, Sign sign ∧ s = sign ++ skipSign s := by
  unfold skipSign
  split
  next => exact ⟨['+'], .plus, rfl⟩
  next => exact ⟨['-'], .minus, rfl⟩
  next => exact ⟨[], .absent, rfl⟩

theorem skipExponent_append {hasExponent : Bool} {exponent : List Char}
    (h : Exponent hasExponent exponent) (hstop : Stops s) :
    skipExponent (exponent ++ s) = some (hasExponent, s) := by
  cases h with
  | absent =>
    cases s with
    | nil => rfl
    | cons c s =>
      obtain ⟨-, -, he, hE⟩ := hstop c rfl
      rw [List.nil_append, skipExponent, if_neg (by simp [he, hE])]
  | @present c sign digits hletter hsign hdigits =>
    obtain ⟨htake, hdrop⟩ := takeWhile_digits hdigits fun c hc => (hstop c hc).1
    rw [List.cons_append, skipExponent, if_pos hletter, skipSign_append hsign hdigits, htake,
      hdrop, if_neg (by simp [hdigits.ne_nil])]

theorem exists_exponent {hasExponent : Bool} (h : skipExponent s = some (hasExponent, rest)) :
    ∃ exponent, Exponent hasExponent exponent ∧ s = exponent ++ rest := by
  unfold skipExponent at h
  split at h
  next c s =>
    split at h
    next hletter =>
      split at h
      next => cases h
      next hsome =>
        cases h
        obtain ⟨sign, hsign, hs⟩ := exists_sign s
        obtain ⟨hdigits, hspan⟩ := span_digits (skipSign s)
        refine ⟨_, .present hletter hsign ⟨by simpa using hsome, hdigits⟩, ?_⟩
        rw [List.cons_append, List.append_assoc, ← hspan, ← hs]
    next =>
      cases h
      exact ⟨[], .absent, rfl⟩
  next =>
    cases h
    exact ⟨[], .absent, rfl⟩

theorem readUnsigned_append {n : Option Nat} {cs : List Char} (h : Unsigned n cs)
    (hstop : Stops s) : readUnsigned (cs ++ s) = some (n, s) := by
  cases h with
  | @mk n hasFraction hasExponent whole fraction exponent hwhole hfraction hexponent =>
    have hexponentStop : ∀ c ∈ (exponent ++ s).head?, c.isDigit = false ∧ c ≠ '.' := by
      cases hexponent with
      | absent => exact fun c hc => ⟨(hstop c hc).1, (hstop c hc).2.1⟩
      | present hletter =>
        rintro c ⟨⟩
        rcases hletter with rfl | rfl <;> decide
    have hfractionStop : ∀ c ∈ (fraction ++ (exponent ++ s)).head?, c.isDigit = false := by
      cases hfraction with
      | absent => exact fun c hc => (hexponentStop c hc).1
      | present =>
        rintro c ⟨⟩
        decide
    obtain ⟨htake, hdrop⟩ := takeWhile_digits hwhole.digits hfractionStop
    rw [List.append_assoc, List.append_assoc, readUnsigned, htake, hdrop,
      (natural?_eq_some_iff hwhole.digits.isDigit).mpr hwhole,
      skipFraction_append hfraction hexponentStop]
    simp only [skipExponent_append hexponent hstop]

theorem Unsigned.head {n : Option Nat} {cs : List Char} (h : Unsigned n cs) :
    ∃ c tail, cs = c :: tail ∧ c.isDigit = true := by
  cases h with
  | mk hwhole _ _ =>
    obtain ⟨c, tail, rfl⟩ := List.exists_cons_of_ne_nil hwhole.digits.ne_nil
    exact ⟨c, _, rfl, hwhole.digits.isDigit c List.mem_cons_self⟩

theorem exists_unsigned {n : Option Nat} (h : readUnsigned s = some (n, rest)) :
    ∃ cs, Unsigned n cs ∧ s = cs ++ rest := by
  unfold readUnsigned at h
  split at h
  next n hasFraction rest' hnatural hfraction =>
    split at h
    next hexponent =>
      cases h
      obtain ⟨hdigits, hspan⟩ := span_digits s
      obtain ⟨fraction, hfraction, hs⟩ := exists_fraction hfraction
      obtain ⟨exponent, hexponent, hs'⟩ := exists_exponent hexponent
      refine ⟨_, .mk ((natural?_eq_some_iff hdigits).mp hnatural) hfraction hexponent, ?_⟩
      rw [List.append_assoc, List.append_assoc, ← hs', ← hs, ← hspan]
    next => cases h
  next => cases h

theorem readNumber_append {n : Option Nat} {cs : List Char} (h : Number n cs)
    (hstop : Stops s) : readNumber (cs ++ s) = some (n, s) := by
  cases h with
  | unsigned h =>
    have hread := readUnsigned_append h hstop
    obtain ⟨c, tail, rfl, hc⟩ := h.head
    unfold readNumber
    split
    next heq =>
      obtain ⟨rfl, -⟩ := List.cons.inj heq
      cases hc
    next => exact hread
  | negative h => rw [List.cons_append, readNumber, readUnsigned_append h hstop]

theorem exists_number {n : Option Nat} (h : readNumber s = some (n, rest)) :
    ∃ cs, Number n cs ∧ s = cs ++ rest := by
  unfold readNumber at h
  split at h
  next s =>
    split at h
    next hread =>
      cases h
      obtain ⟨cs, hcs, rfl⟩ := exists_unsigned hread
      exact ⟨'-' :: cs, .negative hcs, rfl⟩
    next => cases h
  next =>
    obtain ⟨cs, hcs, rfl⟩ := exists_unsigned h
    exact ⟨cs, .unsigned hcs, rfl⟩

/-- The units of a text, as they stand between the quotes. -/
inductive Units : List TextUnit → List Char → Prop
  | nil : Units [] []
  | char {c : Char} {units : List TextUnit} {cs : List Char} (hcontrol : ¬ c < ' ')
      (hquote : c ≠ '"') (hbackslash : c ≠ '\\') (h : Units units cs) :
      Units (.char c :: units) (c :: cs)
  | short {c d : Char} {units : List TextUnit} {cs : List Char} (hescape : shortEscape? c = some d)
      (h : Units units cs) : Units (.char d :: units) ('\\' :: c :: cs)
  | unit {a b c d : Char} {n : Nat} {units : List TextUnit} {cs : List Char}
      (hunit : unit? a b c d = some n) (h : Units units cs) :
      Units (.escaped n :: units) ('\\' :: 'u' :: a :: b :: c :: d :: cs)

theorem readUnits_append {units : List TextUnit} {cs : List Char} (h : Units units cs) :
    readUnits (cs ++ '"' :: s) = some (units, s) := by
  induction h with
  | nil => rw [List.nil_append, readUnits]
  | char hcontrol hquote hbackslash _ ih => simp [readUnits, *]
  | @short c d units cs hescape _ ih =>
    have hu : c ≠ 'u' := by
      rintro rfl
      cases hescape
    rw [List.cons_append, List.cons_append]
    unfold readUnits
    split
    next heq => cases heq
    next heq => cases heq
    next heq => exact absurd (List.cons.inj (List.cons.inj heq).2).1 hu
    next heq =>
      obtain ⟨rfl, rfl⟩ := List.cons.inj (List.cons.inj heq).2
      rw [hescape, ih]
    next hnone heq =>
      obtain ⟨rfl, rfl⟩ := List.cons.inj heq
      exact absurd rfl (hnone c _ rfl)
  | unit hunit _ ih => simp [readUnits, hunit, ih]

theorem exists_units {units : List TextUnit} (h : readUnits s = some (units, rest)) :
    ∃ cs, Units units cs ∧ s = cs ++ '"' :: rest := by
  fun_induction readUnits s generalizing units rest with
  | case2 =>
    cases h
    exact ⟨[], .nil, rfl⟩
  | case3 a b c d s unit units' rest' hread hunit ih =>
    cases h
    obtain ⟨cs, hcs, rfl⟩ := ih hread
    exact ⟨_, .unit hunit hcs, rfl⟩
  | case5 c s _ d units' rest' hread hescape ih =>
    cases h
    obtain ⟨cs, hcs, rfl⟩ := ih hread
    exact ⟨_, .short hescape hcs, rfl⟩
  | case8 c s hquote _ hbackslash hcontrol units' rest' hread ih =>
    cases h
    -- a backslash at the very end stands in front of no quote
    have hchar : c ≠ '\\' := by
      cases s with
      | nil => cases hread
      | cons d tail => exact fun heq => hbackslash d tail heq rfl
    obtain ⟨cs, hcs, rfl⟩ := ih hread
    exact ⟨_, .char hcontrol hquote hchar hcs, rfl⟩
  | case1 => cases h
  | case4 => cases h
  | case6 => cases h
  | case7 => cases h
  | case9 => cases h

/-- A text in quotes. It is no text where an escape stands for half of a character. -/
inductive Quoted : Option String → List Char → Prop
  | mk {units : List TextUnit} {cs : List Char} (hunits : Units units cs) :
      Quoted ((joinUnits units).map String.ofList) ('"' :: (cs ++ ['"']))

theorem readText_append {text : Option String} {cs : List Char} (h : Quoted text ('"' :: cs)) :
    readText (cs ++ s) = some (text, s) := by
  cases h with
  | mk hunits =>
    rw [readText, List.append_assoc, List.cons_append, readUnits_append hunits]
    rfl

theorem exists_quoted {text : Option String} (h : readText s = some (text, rest)) :
    ∃ cs, Quoted text ('"' :: cs) ∧ s = cs ++ rest := by
  unfold readText at h
  split at h
  next => cases h
  next hunits =>
    cases h
    obtain ⟨cs, hcs, rfl⟩ := exists_units hunits
    exact ⟨_, .mk hcs, by simp⟩

end Json

end ThresholdSigning
