import ThresholdSigning.Bytes
import ThresholdSigning.Json

namespace ThresholdSigning.Json

/-- A character inside quotes: the quote, the backslash and the controls are escaped. -/
def escapeChar (c : Char) : List Char :=
  if c = '"' then ['\\', '"']
  else if c = '\\' then ['\\', '\\']
  else if c = '\x08' then ['\\', 'b']
  else if c = '\x0c' then ['\\', 'f']
  else if c = '\n' then ['\\', 'n']
  else if c = '\r' then ['\\', 'r']
  else if c = '\t' then ['\\', 't']
  else if c < ' ' then ['\\', 'u', '0', '0', hexDigit (c.toNat / 16), hexDigit (c.toNat % 16)]
  else [c]

/-- A text in quotes. One that holds half of a character is written as such a half. -/
def writeText : Option String → List Char
  | some s => '"' :: s.toList.flatMap escapeChar ++ ['"']
  | none => "\"\\ud800\"".toList

mutual

/-- The value without any blanks. A number that is no natural one is written as minus one. -/
def write : Json → List Char
  | .null => "null".toList
  | .bool true => "true".toList
  | .bool false => "false".toList
  | .number (some n) => Nat.toDigits 10 n
  | .number none => "-1".toList
  | .string text => writeText text
  | .array [] => "[]".toList
  | .array (item :: items) => '[' :: write item ++ writeItems items
  | .object [] => "\x7b\x7d".toList
  | .object ((name, value) :: members) =>
    '\x7b' :: writeText name ++ ':' :: write value ++ writeMembers members

/-- The items after the first, and the closing bracket. -/
def writeItems : List Json → List Char
  | [] => [']']
  | item :: items => ',' :: write item ++ writeItems items

/-- The members after the first, and the closing brace. -/
def writeMembers : List (Option String × Json) → List Char
  | [] => ['\x7d']
  | (name, value) :: members => ',' :: writeText name ++ ':' :: write value ++ writeMembers members

end

def text (j : Json) : String := String.ofList j.write

end ThresholdSigning.Json
