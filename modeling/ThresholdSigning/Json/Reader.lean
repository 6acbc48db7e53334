import ThresholdSigning.Json
import ThresholdSigning.Text.Parse

namespace ThresholdSigning.Json

def isSpace (c : Char) : Bool := c = ' ' || c = '\t' || c = '\n' || c = '\r'

def skipSpaces (s : List Char) : List Char := s.dropWhile isSpace

/-- What a text in quotes is made of: characters, and escaped units of 16 bits. -/
inductive TextUnit
  | char (c : Char)
  | escaped (unit : Nat)

/-- The value of a hexadecimal digit of either case. -/
def hexValue? (c : Char) : Option Nat :=
  if '0' ≤ c ∧ c ≤ '9' then some (c.toNat - 48)
  else if 'a' ≤ c ∧ c ≤ 'f' then some (c.toNat - 87)
  else if 'A' ≤ c ∧ c ≤ 'F' then some (c.toNat - 55)
  else none

def unit? (a b c d : Char) : Option Nat :=
  match hexValue? a, hexValue? b, hexValue? c, hexValue? d with
  | some a, some b, some c, some d => some (((a * 16 + b) * 16 + c) * 16 + d)
  | _, _, _, _ => none

/-- The character that stands for itself or for a control after a backslash. -/
def shortEscape? : Char → Option Char
  | '"' => some '"'
  | '\\' => some '\\'
  | '/' => some '/'
  | 'b' => some '\x08'
  | 'f' => some '\x0c'
  | 'n' => some '\n'
  | 'r' => some '\r'
  | 't' => some '\t'
  | _ => none

/-- Reads up to the closing quote and gives what comes after it. A control character has to be
escaped. -/
def readUnits : List Char → Option (List TextUnit × List Char)
  | [] => none
  | '"' :: rest => some ([], rest)
  | '\\' :: 'u' :: a :: b :: c :: d :: rest =>
    match unit? a b c d, readUnits rest with
    | some unit, some (units, rest) => some (.escaped unit :: units, rest)
    | _, _ => none
  | '\\' :: c :: rest =>
    match shortEscape? c, readUnits rest with
    | some c, some (units, rest) => some (.char c :: units, rest)
    | _, _ => none
  | c :: rest =>
    if c < ' ' then none
    else
      match readUnits rest with
      | some (units, rest) => some (.char c :: units, rest)
      | none => none

/-- Two escaped units, the high half of a character and then its low half, make one character. -/
def joinUnits : List TextUnit → Option (List Char)
  | [] => some []
  | .char c :: units => (joinUnits units).map (c :: ·)
  | .escaped unit :: units =>
    if 0xd800 ≤ unit ∧ unit < 0xdc00 then
      match units with
      | .escaped low :: units =>
        if 0xdc00 ≤ low ∧ low < 0xe000 then
          (joinUnits units).map
            (Char.ofNat (0x10000 + (unit - 0xd800) * 0x400 + (low - 0xdc00)) :: ·)
        else none
      | _ => none
    else if 0xdc00 ≤ unit ∧ unit < 0xe000 then none
    else (joinUnits units).map (Char.ofNat unit :: ·)

/-- Reads a text after its opening quote. -/
def readText (s : List Char) : Option (Option String × List Char) :=
  match readUnits s with
  | none => none
  | some (units, rest) => some ((joinUnits units).map String.ofList, rest)

def isDigit (c : Char) : Bool := (digit? c).isSome

/-- A point and at least one digit, or nothing; and whether there was a fraction. -/
def skipFraction : List Char → Option (Bool × List Char)
  | '.' :: rest =>
    if (rest.takeWhile isDigit).isEmpty then none else some (true, rest.dropWhile isDigit)
  | s => some (false, s)

def skipSign : List Char → List Char
  | '+' :: rest => rest
  | '-' :: rest => rest
  | s => s

/-- A letter for the exponent, a sign or none, and at least one digit, or nothing; and whether
there was an exponent. -/
def skipExponent : List Char → Option (Bool × List Char)
  | c :: rest =>
    if c = 'e' ∨ c = 'E' then
      if ((skipSign rest).takeWhile isDigit).isEmpty then none
      else some (true, (skipSign rest).dropWhile isDigit)
    else some (false, c :: rest)
  | [] => some (false, [])

/-- The number in decimal digits without a redundant zero in front. -/
def natural? : List Char → Option Nat
  | [] => none
  | '0' :: _ :: _ => none
  | digits => some (digits.foldl (fun n c => 10 * n + (digit? c).getD 0) 0)

/-- Reads a number that has no sign. -/
def readUnsigned (s : List Char) : Option (Option Nat × List Char) :=
  match natural? (s.takeWhile isDigit), skipFraction (s.dropWhile isDigit) with
  | some n, some (hasFraction, rest) =>
    match skipExponent rest with
    | some (hasExponent, rest) => some (if hasFraction || hasExponent then none else some n, rest)
    | none => none
  | _, _ => none

def readNumber : List Char → Option (Option Nat × List Char)
  | '-' :: rest =>
    match readUnsigned rest with
    | some (_, rest) => some (none, rest)
    | none => none
  | s => readUnsigned s

mutual

/-- Reads a value and gives what comes after it. -/
def readValue : Nat → List Char → Option (Json × List Char)
  | 0, _ => none
  | fuel + 1, s =>
    match skipSpaces s with
    | '"' :: rest =>
      match readText rest with
      | some (text, rest) => some (.string text, rest)
      | none => none
    | '[' :: rest =>
      match skipSpaces rest with
      | ']' :: rest => some (.array [], rest)
      | rest =>
        match readItems fuel rest with
        | some (items, rest) => some (.array items, rest)
        | none => none
    | '{' :: rest =>
      match skipSpaces rest with
      | '}' :: rest => some (.object [], rest)
      | rest =>
        match readMembers fuel rest with
        | some (members, rest) => some (.object members, rest)
        | none => none
    | 'n' :: 'u' :: 'l' :: 'l' :: rest => some (.null, rest)
    | 't' :: 'r' :: 'u' :: 'e' :: rest => some (.bool true, rest)
    | 'f' :: 'a' :: 'l' :: 's' :: 'e' :: rest => some (.bool false, rest)
    | rest =>
      match readNumber rest with
      | some (n, rest) => some (.number n, rest)
      | none => none

/-- Reads one or more values with commas between them, up to the closing bracket. -/
def readItems : Nat → List Char → Option (List Json × List Char)
  | 0, _ => none
  | fuel + 1, s =>
    match readValue fuel s with
    | none => none
    | some (item, rest) =>
      match skipSpaces rest with
      | ']' :: rest => some ([item], rest)
      | ',' :: rest =>
        match readItems fuel rest with
        | some (items, rest) => some (item :: items, rest)
        | none => none
      | _ => none

/-- Reads one or more members with commas between them, up to the closing brace. -/
def readMembers : Nat → List Char → Option (List (Option String × Json) × List Char)
  | 0, _ => none
  | fuel + 1, s =>
    match skipSpaces s with
    | '"' :: rest =>
      match readText rest with
      | none => none
      | some (name, rest) =>
        match skipSpaces rest with
        | ':' :: rest =>
          match readValue fuel rest with
          | none => none
          | some (value, rest) =>
            match skipSpaces rest with
            | '}' :: rest => some ([(name, value)], rest)
            | ',' :: rest =>
              match readMembers fuel rest with
              | some (members, rest) => some ((name, value) :: members, rest)
              | none => none
            | _ => none
        | _ => none
    | _ => none

end

/-- Reads a text that holds one value and nothing else. Every level of nesting takes a character,
so the fuel lasts. -/
def parse? (s : String) : Option Json :=
  match readValue (2 * s.toList.length + 1) s.toList with
  | some (j, rest) => if (skipSpaces rest).isEmpty then some j else none
  | none => none

end ThresholdSigning.Json
