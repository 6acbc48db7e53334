import ThresholdSigning.Error
import ThresholdSigning.Wire.Text

namespace ThresholdSigning

/-- How a value is written, and read back from the front of some bytes. -/
structure Format (α : Type) where
  write : α → ByteArray
  read : ByteArray → Except WireFault (α × ByteArray)

/-- The first `count` bytes and the rest. -/
def takeBytes (count : Nat) (bytes : ByteArray) : Except WireFault (ByteArray × ByteArray) :=
  if bytes.size < count then .error .truncated
  else .ok (bytes.extract 0 count, bytes.extract count bytes.size)

/-- Reads `count` values one after the other. -/
def readMany {α : Type} (read : ByteArray → Except WireFault (α × ByteArray)) :
    Nat → ByteArray → Except WireFault (List α × ByteArray)
  | 0, bytes => .ok ([], bytes)
  | count + 1, bytes =>
    match read bytes with
    | .error fault => .error fault
    | .ok (x, bytes) =>
      match readMany read count bytes with
      | .error fault => .error fault
      | .ok (xs, bytes) => .ok (x :: xs, bytes)

namespace Format

variable {α β : Type}

/-- A natural number in `width` bytes, least significant first. -/
def fixed (width : Nat) : Format Nat where
  write n := ⟨⟨toLittleEndian width n⟩⟩
  read bytes :=
    match takeBytes width bytes with
    | .error fault => .error fault
    | .ok (digits, rest) => .ok (littleEndian digits.data.toList, rest)

/-- An integer of 32 bits, in two's complement. -/
def signed32 : Format Int where
  write i := (fixed 4).write (i % 0x100000000).toNat
  read bytes :=
    match (fixed 4).read bytes with
    | .error fault => .error fault
    | .ok (n, rest) => .ok (if n < 0x80000000 then (n : Int) else (n : Int) - 0x100000000, rest)

/-- One byte, zero or one. -/
def flag : Format Bool where
  write b := ⟨#[if b then 1 else 0]⟩
  read bytes :=
    match takeBytes 1 bytes with
    | .error fault => .error fault
    | .ok (byte, rest) =>
      match byte.data.toList with
      | [b] =>
        if b = 0 then .ok (false, rest)
        else if b = 1 then .ok (true, rest)
        else .error (.notFlag b)
      | _ => .error .truncated

/-- Bytes after their number. -/
def blob : Format ByteArray where
  write bytes := (fixed 8).write bytes.size ++ bytes
  read bytes :=
    match (fixed 8).read bytes with
    | .error fault => .error fault
    | .ok (size, rest) => takeBytes size rest

/-- The text that bytes stand for. -/
def decodeText (bytes : ByteArray) : Except WireFault String :=
  if valid : bytes.validateUTF8 = true then
    .ok (String.ofByteArray bytes (ByteArray.validateUTF8_eq_true_iff.mp valid))
  else
    match textFault 0 bytes.size bytes.data.toList with
    | some (prefixSize, length) => .error (.notText prefixSize length)
    | none => .error (.notText bytes.size none)

/-- The bytes of a text after their number. -/
def text : Format String where
  write s := (fixed 8).write s.toByteArray.size ++ s.toByteArray
  read bytes :=
    match (fixed 8).read bytes with
    | .error fault => .error fault
    | .ok (size, rest) =>
      match takeBytes size rest with
      | .error _ => .error .textTruncated
      | .ok (content, rest) =>
        match decodeText content with
        | .error fault => .error fault
        | .ok s => .ok (s, rest)

def pair (f : Format α) (g : Format β) : Format (α × β) where
  write x := f.write x.1 ++ g.write x.2
  read bytes :=
    match f.read bytes with
    | .error fault => .error fault
    | .ok (x, bytes) =>
      match g.read bytes with
      | .error fault => .error fault
      | .ok (y, bytes) => .ok ((x, y), bytes)

/-- Values after their number. -/
def list (f : Format α) : Format (List α) where
  write xs := xs.foldl (fun bytes x => bytes ++ f.write x) ((fixed 8).write xs.length)
  read bytes :=
    match (fixed 8).read bytes with
    | .error fault => .error fault
    | .ok (count, rest) => readMany f.read count rest

/-- The same bytes, seen as another type. -/
def map (f : Format α) (into : α → β) (out : β → α) : Format β where
  write y := f.write (out y)
  read bytes :=
    match f.read bytes with
    | .error fault => .error fault
    | .ok (x, bytes) => .ok (into x, bytes)

/-- Reads a value that takes up all the bytes. -/
def decode (f : Format α) (bytes : ByteArray) : Except WireFault α :=
  match f.read bytes with
  | .error fault => .error fault
  | .ok (x, rest) => if rest.size = 0 then .ok x else .error .leftOver

end Format

end ThresholdSigning
