namespace ThresholdSigning

/-- A length of time in seconds and nanoseconds. -/
structure Duration where
  secs : Nat
  nanos : Nat
  nanos_lt : nanos < 1000000000 := by omega
deriving DecidableEq

namespace Duration

/-- Whole seconds in `nanos` are carried into the seconds. -/
def ofParts (secs nanos : Nat) : Duration where
  secs := secs + nanos / 1000000000
  nanos := nanos % 1000000000

def ofSecs (secs : Nat) : Duration where
  secs := secs
  nanos := 0

def ofMillis (millis : Nat) : Duration where
  secs := millis / 1000
  nanos := millis % 1000 * 1000000

/-- Whole milliseconds; the rest is cut off. -/
def millis (d : Duration) : Nat :=
  d.secs * 1000 + d.nanos / 1000000

/-- The whole length in nanoseconds. -/
def inNanos (d : Duration) : Nat :=
  1000000000 * d.secs + d.nanos

/-- The lowest `width` decimal digits of `n`, most significant first. -/
def decimals : Nat → Nat → List Char
  | 0, _ => []
  | width + 1, n => decimals width (n / 10) ++ [Char.ofNat (48 + n % 10)]

/-- A point and the digits after it without trailing zeros; nothing if no digit is left. -/
def fraction (width n : Nat) : String :=
  match ((decimals width n).reverse.dropWhile (· = '0')).reverse with
  | [] => ""
  | digits => String.ofList ('.' :: digits)

/-- The largest unit of which there is at least one, with an exact fraction. -/
def text (d : Duration) : String :=
  if 0 < d.secs then toString d.secs ++ fraction 9 d.nanos ++ "s"
  else if 1000000 ≤ d.nanos then
    toString (d.nanos / 1000000) ++ fraction 6 (d.nanos % 1000000) ++ "ms"
  else if 1000 ≤ d.nanos then
    toString (d.nanos / 1000) ++ fraction 3 (d.nanos % 1000) ++ "µs"
  else toString d.nanos ++ "ns"

end Duration

end ThresholdSigning
