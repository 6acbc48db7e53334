import ThresholdSigning.Bytes

namespace ThresholdSigning

/-- Why a text is no number. -/
inductive NumberFault
  | empty
  | invalidDigit
  | tooLarge
deriving DecidableEq, Repr

namespace NumberFault

def message : NumberFault → String
  | empty => "cannot parse integer from empty string"
  | invalidDigit => "invalid digit found in string"
  | tooLarge => "number too large to fit in target type"

end NumberFault

/-- The value of an ASCII decimal digit. -/
def digit? (c : Char) : Option Nat :=
  if '0' ≤ c ∧ c ≤ '9' then some (c.toNat - 48) else none

/-- Appends decimal digits to `n`, left to right. At each character a wrong digit is noticed before
a value of more than 64 bits. -/
def appendDigits (n : Nat) : List Char → Except NumberFault Nat
  | [] => .ok n
  | c :: cs =>
    match digit? c with
    | none => .error .invalidDigit
    | some d => if 10 * n + d < wordLimit then appendDigits (10 * n + d) cs else .error .tooLarge

/-- A number of 64 bits in decimal digits, after an optional plus sign. -/
def parseWord : List Char → Except NumberFault Nat
  | [] => .error .empty
  | ['+'] => .error .invalidDigit
  | '+' :: cs => appendDigits 0 cs
  | cs => appendDigits 0 cs

/-- A flag is exactly `true` or `false`. -/
def parseFlag (s : List Char) : Option Bool :=
  if s = "true".toList then some true
  else if s = "false".toList then some false
  else none

end ThresholdSigning
