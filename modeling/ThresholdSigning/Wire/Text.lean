namespace ThresholdSigning

/-- How a multi-byte character goes on after its first byte: the range of the second byte and how
many bytes of the form `10xxxxxx` follow that one. -/
def continuation? (first : UInt8) : Option (UInt8 × UInt8 × Nat) :=
  if 0xc2 ≤ first ∧ first ≤ 0xdf then some (0x80, 0xbf, 0)
  else if first = 0xe0 then some (0xa0, 0xbf, 1)
  else if first = 0xed then some (0x80, 0x9f, 1)
  else if 0xe1 ≤ first ∧ first ≤ 0xef then some (0x80, 0xbf, 1)
  else if first = 0xf0 then some (0x90, 0xbf, 2)
  else if 0xf1 ≤ first ∧ first ≤ 0xf3 then some (0x80, 0xbf, 2)
  else if first = 0xf4 then some (0x80, 0x8f, 2)
  else none

/-- Reads `more` bytes of the form `10xxxxxx` after `seen` bytes of a character, and gives the
character's length and the rest. On failure the number of bytes read so far, unless the input
ends. -/
def readTrail (seen : Nat) : Nat → List UInt8 → Except (Option Nat) (Nat × List UInt8)
  | 0, bytes => .ok (seen, bytes)
  | _ + 1, [] => .error none
  | more + 1, b :: bytes =>
    if 0x80 ≤ b ∧ b ≤ 0xbf then readTrail (seen + 1) more bytes else .error (some seen)

/-- Reads one character, as its length and the rest. On failure the length of the faulty sequence,
unless the input ends. -/
def readChar : List UInt8 → Except (Option Nat) (Nat × List UInt8)
  | [] => .error none
  | first :: bytes =>
    if first < 0x80 then .ok (1, bytes)
    else
      match continuation? first with
      | none => .error (some 1)
      | some (low, high, more) =>
        match bytes with
        | [] => .error none
        | second :: bytes =>
          if low ≤ second ∧ second ≤ high then readTrail 2 more bytes else .error (some 1)

/-- Where bytes stop being text, after `valid` bytes that are: the length of the valid part and of
the faulty sequence after it, unless the bytes end inside that one. At most `fuel` characters are
read. -/
def textFault (valid : Nat) : Nat → List UInt8 → Option (Nat × Option Nat)
  | 0, _ => none
  | _, [] => none
  | fuel + 1, bytes =>
    match readChar bytes with
    | .error length => some (valid, length)
    | .ok (length, rest) => textFault (valid + length) fuel rest

end ThresholdSigning
