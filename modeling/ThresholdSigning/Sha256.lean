import ThresholdSigning.Bytes

namespace ThresholdSigning.Sha256

/-- What is carried from one block of a message to the next. -/
structure State where
  a : UInt32
  b : UInt32
  c : UInt32
  d : UInt32
  e : UInt32
  f : UInt32
  g : UInt32
  h : UInt32

/-- The fractional parts of the square roots of the first eight primes. -/
def initial : State :=
  ⟨0x6a09e667, 0xbb67ae85, 0x3c6ef372, 0xa54ff53a, 0x510e527f, 0x9b05688c, 0x1f83d9ab, 0x5be0cd19⟩

/-- The fractional parts of the cube roots of the first 64 primes, one for each round. -/
def roundConstants : List UInt32 :=
  [0x428a2f98, 0x71374491, 0xb5c0fbcf, 0xe9b5dba5, 0x3956c25b, 0x59f111f1, 0x923f82a4, 0xab1c5ed5,
    0xd807aa98, 0x12835b01, 0x243185be, 0x550c7dc3, 0x72be5d74, 0x80deb1fe, 0x9bdc06a7, 0xc19bf174,
    0xe49b69c1, 0xefbe4786, 0x0fc19dc6, 0x240ca1cc, 0x2de92c6f, 0x4a7484aa, 0x5cb0a9dc, 0x76f988da,
    0x983e5152, 0xa831c66d, 0xb00327c8, 0xbf597fc7, 0xc6e00bf3, 0xd5a79147, 0x06ca6351, 0x14292967,
    0x27b70a85, 0x2e1b2138, 0x4d2c6dfc, 0x53380d13, 0x650a7354, 0x766a0abb, 0x81c2c92e, 0x92722c85,
    0xa2bfe8a1, 0xa81a664b, 0xc24b8b70, 0xc76c51a3, 0xd192e819, 0xd6990624, 0xf40e3585, 0x106aa070,
    0x19a4c116, 0x1e376c08, 0x2748774c, 0x34b0bcb5, 0x391c0cb3, 0x4ed8aa4a, 0x5b9cca4f, 0x682e6ff3,
    0x748f82ee, 0x78a5636f, 0x84c87814, 0x8cc70208, 0x90befffa, 0xa4506ceb, 0xbef9a3f7, 0xc67178f2]

def rotateRight (w : UInt32) (bits : UInt32) : UInt32 := w >>> bits ||| w <<< (32 - bits)

/-- The word that follows sixteen words of the schedule. -/
def nextWord (words : List UInt32) : UInt32 :=
  let early := words.getD 1 0
  let late := words.getD 14 0
  words.getD 0 0 + (rotateRight early 7 ^^^ rotateRight early 18 ^^^ early >>> 3) +
    words.getD 9 0 + (rotateRight late 17 ^^^ rotateRight late 19 ^^^ late >>> 10)

def round (s : State) (constant word : UInt32) : State :=
  let choice := (s.e &&& s.f) ^^^ (~~~s.e &&& s.g)
  let majority := (s.a &&& s.b) ^^^ (s.a &&& s.c) ^^^ (s.b &&& s.c)
  let mixed := s.h + (rotateRight s.e 6 ^^^ rotateRight s.e 11 ^^^ rotateRight s.e 25) + choice +
    constant + word
  let sum := (rotateRight s.a 2 ^^^ rotateRight s.a 13 ^^^ rotateRight s.a 22) + majority
  ⟨mixed + sum, s.a, s.b, s.c, s.d + mixed, s.e, s.f, s.g⟩

/-- One round for each constant; the schedule moves on by a word after each. -/
def rounds : List UInt32 → List UInt32 → State → State
  | [], _, s => s
  | constant :: constants, words, s =>
    rounds constants (words.tail ++ [nextWord words]) (round s constant (words.headD 0))

/-- Takes in a block of sixteen words. -/
def compress (s : State) (block : List UInt32) : State :=
  let t := rounds roundConstants block s
  ⟨s.a + t.a, s.b + t.b, s.c + t.c, s.d + t.d, s.e + t.e, s.f + t.f, s.g + t.g, s.h + t.h⟩

/-- Four bytes each, most significant byte first. -/
def toWords : List UInt8 → List UInt32
  | b :: c :: d :: e :: bytes => UInt32.ofNat (bigEndian [b, c, d, e]) :: toWords bytes
  | _ => []

/-- A one bit, zeros up to a whole number of blocks, and the length in bits at the end. -/
def padded (bytes : List UInt8) : List UInt8 :=
  bytes ++ 0x80 :: List.replicate ((119 - bytes.length % 64) % 64) 0 ++
    toBigEndian 8 (8 * bytes.length)

def compressAll : Nat → List UInt8 → State → State
  | 0, _, s => s
  | blocks + 1, bytes, s =>
    compressAll blocks (bytes.drop 64) (compress s (toWords (bytes.take 64)))

/-- The digest of a message, 32 bytes. -/
def digest (message : ByteArray) : ByteArray :=
  let bytes := padded message.data.toList
  let s := compressAll (bytes.length / 64) bytes initial
  ⟨⟨[s.a, s.b, s.c, s.d, s.e, s.f, s.g, s.h].flatMap fun w => toBigEndian 4 w.toNat⟩⟩

example : hex (digest "abc".toByteArray) =
    "ba7816bf8f01cfea414140de5dae2223b00361a396177a9cb410ff61f20015ad" := by
  decide +kernel

end ThresholdSigning.Sha256
