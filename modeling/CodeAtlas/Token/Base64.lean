/-!
# Base 64

Bytes as text with 64 characters, six bits each, in the alphabet that is safe in addresses. Reading
is lenient: characters of no meaning are passed over, and what follows complete padding is not read.
-/

namespace CodeAtlas.Token.Base64

/-- The value of a character; the signs of the other alphabet count as well. -/
def value? (b : UInt8) : Option Nat :=
  let n := b.toNat
  if 'A'.toNat ≤ n && n ≤ 'Z'.toNat then some (n - 'A'.toNat)
  else if 'a'.toNat ≤ n && n ≤ 'z'.toNat then some (n - 'a'.toNat + 26)
  else if '0'.toNat ≤ n && n ≤ '9'.toNat then some (n - '0'.toNat + 52)
  else if n = '-'.toNat || n = '+'.toNat then some 62
  else if n = '_'.toNat || n = '/'.toNat then some 63
  else none

/-- How far reading has come in a group of four characters: how many were read, the bits of them
that are not yet in a byte, and how many padding signs stood there. -/
structure Group where
  count : Nat
  bits : Nat
  pads : Nat

/-- Reads characters after the start of a group. A group must be complete at the end, by itself or
by padding. -/
def decodeFrom (g : Group) : List UInt8 → Option (List UInt8)
  | [] => if g.count = 0 then some [] else none
  | b :: rest =>
    if b.toNat = '='.toNat then
      if 2 ≤ g.count then
        if 4 ≤ g.count + g.pads + 1 then some []
        else decodeFrom { g with pads := g.pads + 1 } rest
      else decodeFrom g rest
    else
      match value? b with
      | none => decodeFrom g rest
      | some v =>
        match g.count with
        | 0 => decodeFrom ⟨1, v, 0⟩ rest
        | 1 => (decodeFrom ⟨2, v % 16, 0⟩ rest).map ((g.bits * 4 + v / 16).toUInt8 :: ·)
        | 2 => (decodeFrom ⟨3, v % 4, 0⟩ rest).map ((g.bits * 16 + v / 4).toUInt8 :: ·)
        | _ => (decodeFrom ⟨0, 0, 0⟩ rest).map ((g.bits * 64 + v).toUInt8 :: ·)

/-- The bytes of a text, whose padding may be left out. -/
def decode (text : List UInt8) : Option (List UInt8) :=
  let missing := (4 - text.length % 4) % 4
  decodeFrom ⟨0, 0, 0⟩ (text ++ List.replicate missing '='.toNat.toUInt8)

end CodeAtlas.Token.Base64
