/-!
# Digests

The 256-bit digest of bytes and the code that authenticates bytes under a key with it. A message is
padded to whole blocks of 64 bytes, each block is spread to 64 words, and the words are mixed into
eight words of state one after another.
-/

namespace CodeAtlas.Token.Digest

/-- Rotates a word to the right. -/
def rotate (x : UInt32) (n : UInt32) : UInt32 :=
  (x >>> n) ||| (x <<< (32 - n))

def roundConstants : List UInt32 :=
  [
    0x428a2f98, 0x71374491, 0xb5c0fbcf, 0xe9b5dba5, 0x3956c25b, 0x59f111f1, 0x923f82a4, 0xab1c5ed5,
    0xd807aa98, 0x12835b01, 0x243185be, 0x550c7dc3, 0x72be5d74, 0x80deb1fe, 0x9bdc06a7, 0xc19bf174,
    0xe49b69c1, 0xefbe4786, 0x0fc19dc6, 0x240ca1cc, 0x2de92c6f, 0x4a7484aa, 0x5cb0a9dc, 0x76f988da,
    0x983e5152, 0xa831c66d, 0xb00327c8, 0xbf597fc7, 0xc6e00bf3, 0xd5a79147, 0x06ca6351, 0x14292967,
    0x27b70a85, 0x2e1b2138, 0x4d2c6dfc, 0x53380d13, 0x650a7354, 0x766a0abb, 0x81c2c92e, 0x92722c85,
    0xa2bfe8a1, 0xa81a664b, 0xc24b8b70, 0xc76c51a3, 0xd192e819, 0xd6990624, 0xf40e3585, 0x106aa070,
    0x19a4c116, 0x1e376c08, 0x2748774c, 0x34b0bcb5, 0x391c0cb3, 0x4ed8aa4a, 0x5b9cca4f, 0x682e6ff3,
    0x748f82ee, 0x78a5636f, 0x84c87814, 0x8cc70208, 0x90befffa, 0xa4506ceb, 0xbef9a3f7, 0xc67178f2]

/-- The eight words of state. -/
structure State where
  a : UInt32
  b : UInt32
  c : UInt32
  d : UInt32
  e : UInt32
  f : UInt32
  g : UInt32
  h : UInt32

def State.start : State :=
  ⟨0x6a09e667, 0xbb67ae85, 0x3c6ef372, 0xa54ff53a, 0x510e527f, 0x9b05688c, 0x1f83d9ab, 0x5be0cd19⟩

def State.add (s t : State) : State :=
  ⟨s.a + t.a, s.b + t.b, s.c + t.c, s.d + t.d, s.e + t.e, s.f + t.f, s.g + t.g, s.h + t.h⟩

/-- One round: mixes a constant and a word of the block into the state. -/
def State.round (s : State) (k w : UInt32) : State :=
  let chosen := (s.e &&& s.f) ^^^ ((~~~ s.e) &&& s.g)
  let most := (s.a &&& s.b) ^^^ (s.a &&& s.c) ^^^ (s.b &&& s.c)
  let t := s.h + (rotate s.e 6 ^^^ rotate s.e 11 ^^^ rotate s.e 25) + chosen + k + w
  let u := (rotate s.a 2 ^^^ rotate s.a 13 ^^^ rotate s.a 22) + most
  ⟨t + u, s.a, s.b, s.c, s.d + t, s.e, s.f, s.g⟩

/-- The words of bytes, four to a word, the highest first. -/
def words : List UInt8 → List UInt32
  | a :: b :: c :: d :: rest =>
    ((a.toUInt32 <<< 24) ||| (b.toUInt32 <<< 16) ||| (c.toUInt32 <<< 8) ||| d.toUInt32) ::
      words rest
  | _ => []

/-- Adds so many words to those before, which stand in reverse order. -/
def spread : (count : Nat) → List UInt32 → List UInt32
  | 0, before => before.reverse
  | count + 1, before =>
    let word (i : Nat) : UInt32 := before.getD (i - 1) 0
    let x := word 15
    let y := word 2
    spread count
      ((word 16 + (rotate x 7 ^^^ rotate x 18 ^^^ (x >>> 3)) + word 7 +
        (rotate y 17 ^^^ rotate y 19 ^^^ (y >>> 10))) :: before)

def State.mix (s : State) (block : List UInt8) : State :=
  let schedule := spread 48 (words block).reverse
  s.add ((roundConstants.zip schedule).foldl (fun s (k, w) => s.round k w) s)

/-- The bytes of a number, so many of them, the highest first. -/
def bytesOf : (count : Nat) → Nat → List UInt8
  | 0, _ => []
  | count + 1, n => bytesOf count (n / 256) ++ [(n % 256).toUInt8]

/-- A message with its padding: one bit, zeros, and the length in bits. -/
def pad (message : List UInt8) : List UInt8 :=
  let zeros := (119 - message.length % 64) % 64
  message ++ 0x80 :: List.replicate zeros 0 ++ bytesOf 8 (message.length * 8)

def State.mixAll : (blocks : Nat) → State → List UInt8 → State
  | 0, s, _ => s
  | blocks + 1, s, message => State.mixAll blocks (s.mix (message.take 64)) (message.drop 64)

def State.bytes (s : State) : List UInt8 :=
  [s.a, s.b, s.c, s.d, s.e, s.f, s.g, s.h].flatMap fun w => bytesOf 4 w.toNat

def digest (message : List UInt8) : List UInt8 :=
  let padded := pad message
  (State.mixAll (padded.length / 64) .start padded).bytes

/-- The code that authenticates a message under a key. -/
def authenticate (key message : List UInt8) : List UInt8 :=
  let short := if 64 < key.length then digest key else key
  let full := short ++ List.replicate (64 - short.length) 0
  digest (full.map (· ^^^ 0x5c) ++ digest (full.map (· ^^^ 0x36) ++ message))

end CodeAtlas.Token.Digest
