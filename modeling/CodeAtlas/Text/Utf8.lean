/-!
# UTF-8

Bytes are read one character at a time. Where they are no character, the longest run of bytes that
could still have begun one is set aside as a single fault (a single byte if none could), so reading
always goes on. The strict reading reports the first fault, the lenient one drops every fault.
-/

namespace CodeAtlas.Text.Utf8

/-- Why bytes are not a character. -/
inductive Reason where
  /-- No character begins with this byte. -/
  | start
  /-- A byte that should continue the character does not. -/
  | continuation
  /-- The bytes end within the character. -/
  | ending
  deriving DecidableEq, Repr

/-- Bytes that are not a character: how many, and why. -/
structure Fault where
  bytes : List UInt8
  reason : Reason
  deriving DecidableEq, Repr

/-- What stands at one place of the input: a character or a fault. -/
inductive Piece where
  | char (c : Char)
  | fault (f : Fault)
  deriving DecidableEq, Repr

/-- A byte of the form `10xxxxxx`. -/
def continues (b : UInt8) : Bool :=
  0x80 ≤ b && b ≤ 0xbf

/-- The six payload bits of a continuation byte. -/
def payload (b : UInt8) : Nat :=
  b.toNat % 0x40

/-- The second byte of a three-byte character must also rule out overlong forms and surrogates. -/
def secondOfThree (lead second : UInt8) : Bool :=
  continues second && !(lead == 0xe0 && second < 0xa0) && !(lead == 0xed && 0xa0 ≤ second)

/-- The second byte of a four-byte character must also rule out overlong forms and code points
above the last one. -/
def secondOfFour (lead second : UInt8) : Bool :=
  continues second && !(lead == 0xf0 && second < 0x90) && !(lead == 0xf4 && 0x90 ≤ second)

/-- What a two-byte lead and the bytes after it begin with, and how many of those bytes it takes. -/
def headOfTwo (a : UInt8) : List UInt8 → Piece × Nat
  | [] => (.fault ⟨[a], .ending⟩, 0)
  | b :: _ =>
    if continues b then (.char (Char.ofNat (a.toNat % 0x20 * 0x40 + payload b)), 1)
    else (.fault ⟨[a], .continuation⟩, 0)

/-- What a three-byte lead and the bytes after it begin with. -/
def headOfThree (a : UInt8) : List UInt8 → Piece × Nat
  | [] => (.fault ⟨[a], .ending⟩, 0)
  | b :: rest =>
    if secondOfThree a b then
      match rest with
      | [] => (.fault ⟨[a, b], .ending⟩, 1)
      | c :: _ =>
        if continues c then
          (.char (Char.ofNat (a.toNat % 0x10 * 0x1000 + payload b * 0x40 + payload c)), 2)
        else (.fault ⟨[a, b], .continuation⟩, 1)
    else (.fault ⟨[a], .continuation⟩, 0)

/-- What a four-byte lead and the bytes after it begin with. -/
def headOfFour (a : UInt8) : List UInt8 → Piece × Nat
  | [] => (.fault ⟨[a], .ending⟩, 0)
  | b :: rest =>
    if secondOfFour a b then
      match rest with
      | [] => (.fault ⟨[a, b], .ending⟩, 1)
      | c :: rest' =>
        if continues c then
          match rest' with
          | [] => (.fault ⟨[a, b, c], .ending⟩, 2)
          | d :: _ =>
            if continues d then
              (.char (Char.ofNat (a.toNat % 0x8 * 0x40000 + payload b * 0x1000 +
                payload c * 0x40 + payload d)), 3)
            else (.fault ⟨[a, b, c], .continuation⟩, 2)
        else (.fault ⟨[a, b], .continuation⟩, 1)
    else (.fault ⟨[a], .continuation⟩, 0)

/-- The piece that a byte and the bytes after it begin with, and how many of those it takes. -/
def head (a : UInt8) (rest : List UInt8) : Piece × Nat :=
  if a < 0x80 then (.char (Char.ofNat a.toNat), 0)
  else if a < 0xc2 || 0xf4 < a then (.fault ⟨[a], .start⟩, 0)
  else if a < 0xe0 then headOfTwo a rest
  else if a < 0xf0 then headOfThree a rest
  else headOfFour a rest

/-- The pieces of a byte sequence after its first `taken` bytes. -/
def piecesAfter : (taken : Nat) → List UInt8 → List Piece
  | _, [] => []
  | taken + 1, _ :: rest => piecesAfter taken rest
  | 0, a :: rest => (head a rest).1 :: piecesAfter (head a rest).2 rest

/-- The pieces of a byte sequence, in order. -/
def pieces (bytes : List UInt8) : List Piece :=
  piecesAfter 0 bytes

/-- The characters among the pieces; faults are dropped. -/
def charsOf (ps : List Piece) : List Char :=
  ps.filterMap fun
    | .char c => some c
    | .fault _ => none

/-- The lenient reading: what is not a character is left out. -/
def decodeLenient (bytes : List UInt8) : List Char :=
  charsOf (pieces bytes)

/-- A fault together with the number of bytes before it. -/
structure Located where
  position : Nat
  fault : Fault
  deriving DecidableEq, Repr

/-- How many bytes a character takes. -/
def width (c : Char) : Nat :=
  if c.toNat < 0x80 then 1 else if c.toNat < 0x800 then 2 else if c.toNat < 0x10000 then 3 else 4

/-- The first fault among the pieces, after `position` bytes. -/
def firstFault (position : Nat) : List Piece → Option Located
  | [] => none
  | .char c :: rest => firstFault (position + width c) rest
  | .fault f :: _ => some ⟨position, f⟩

/-- The strict reading: all characters, or the first fault. -/
def decode (bytes : List UInt8) : Except Located (List Char) :=
  let ps := pieces bytes
  match firstFault 0 ps with
  | some fault => .error fault
  | none => .ok (charsOf ps)

def encodeChar (c : Char) : List UInt8 :=
  let n := c.toNat
  if n < 0x80 then [n.toUInt8]
  else if n < 0x800 then [(0xc0 + n / 0x40).toUInt8, (0x80 + n % 0x40).toUInt8]
  else if n < 0x10000 then
    [(0xe0 + n / 0x1000).toUInt8, (0x80 + n / 0x40 % 0x40).toUInt8, (0x80 + n % 0x40).toUInt8]
  else
    [(0xf0 + n / 0x40000).toUInt8, (0x80 + n / 0x1000 % 0x40).toUInt8,
      (0x80 + n / 0x40 % 0x40).toUInt8, (0x80 + n % 0x40).toUInt8]

def encode (text : List Char) : List UInt8 :=
  text.flatMap encodeChar

/-- Two lower-case hexadecimal digits. -/
def hexByte (b : UInt8) : String :=
  String.ofList [Nat.digitChar (b.toNat / 16), Nat.digitChar (b.toNat % 16)]

def Reason.message : Reason → String
  | .start => "invalid start byte"
  | .continuation => "invalid continuation byte"
  | .ending => "unexpected end of data"

/-- The wording of a fault: one byte is shown, several only by their positions. -/
def Located.message (l : Located) : String :=
  match l.fault.bytes with
  | [b] =>
    s!"'utf-8' codec can't decode byte 0x{hexByte b} in position {l.position}: " ++
      l.fault.reason.message
  | bytes =>
    s!"'utf-8' codec can't decode bytes in position {l.position}-" ++
      s!"{l.position + bytes.length - 1}: " ++ l.fault.reason.message

end CodeAtlas.Text.Utf8
