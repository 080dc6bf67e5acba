/-
**Bytes written in base 64.**

Four characters of an alphabet of sixty-four stand for three bytes.  Characters outside the alphabet
count for nothing, and a last group may be cut short after two or three characters if padding fills
it.

* `sextet?`: the six bits that a character stands for;
* `decodeBase64?`: the bytes that a text denotes.
-/

namespace RamlInterfaces.Text

/-- The six bits that a character of the alphabet stands for. -/
def sextet? (c : Char) : Option Nat :=
  if 'A' ≤ c ∧ c ≤ 'Z' then some (c.toNat - 'A'.toNat)
  else if 'a' ≤ c ∧ c ≤ 'z' then some (c.toNat - 'a'.toNat + 26)
  else if c.isDigit then some (c.toNat - '0'.toNat + 52)
  else if c = '+' then some 62
  else if c = '/' then some 63
  else none

/-- The bytes of the rest of a text: `size` characters of the group came before it, of which the
bits `left` are not yet part of a byte, and then `padding` characters that fill the group up.  What
follows a filled group does not count. -/
def decodeGroup? (size left padding : Nat) : List Char → Option (List UInt8)
  | [] => if size = 0 then some [] else none
  | c :: rest =>
    if c = '=' then
      if size < 2 then decodeGroup? size left padding rest
      else if size + padding < 3 then decodeGroup? size left (padding + 1) rest
      else some []
    else match sextet? c, size with
      | none, _ => decodeGroup? size left padding rest
      | some bits, 0 => decodeGroup? 1 bits 0 rest
      | some bits, 1 =>
        (decodeGroup? 2 (bits % 16) 0 rest).map (UInt8.ofNat (left * 4 + bits / 16) :: ·)
      | some bits, 2 =>
        (decodeGroup? 3 (bits % 4) 0 rest).map (UInt8.ofNat (left * 16 + bits / 4) :: ·)
      | some bits, _ => (decodeGroup? 0 0 0 rest).map (UInt8.ofNat (left * 64 + bits) :: ·)

/-- The bytes that a text denotes; none if its last group is not filled. -/
def decodeBase64? (cs : List Char) : Option (List UInt8) := decodeGroup? 0 0 0 cs

end RamlInterfaces.Text
