/-
**Quoted texts.**

A text inside a listed value is written between quotes: apostrophes, or double quotes when the text
holds an apostrophe and no double quote.  The quote itself and the backslash are escaped by a
backslash, a tab, a line feed and a carriage return by their letters, and any other character that
is not printable by its code in hexadecimal.

* `quoted`: the quoted form;
* `quotedBytes`: the quoted form of bytes, which are characters of ASCII or codes;
* `bracketed`: several texts, quoted, in square brackets.
-/

import RamlInterfaces.Text.Printable
import RamlInterfaces.Text.Runs

namespace RamlInterfaces.Text

/-- The code in small hexadecimal digits, with leading zeros up to the width. -/
def hexDigits (width code : Nat) : List Char :=
  let digits := Nat.toDigits 16 code
  List.replicate (width - digits.length) '0' ++ digits

/-- The quote around a text: a double quote only where it saves escapes. -/
def quoteFor (cs : List Char) : Char :=
  if cs.contains '\x27' && !cs.contains '"' then '"' else '\x27'

/-- One character of a text between the given quotes. -/
def quotedChar (quote c : Char) : List Char :=
  if c == quote || c == '\\' then ['\\', c]
  else if c == '\t' then ['\\', 't']
  else if c == '\n' then ['\\', 'n']
  else if c == '\r' then ['\\', 'r']
  else if isPrintable c then [c]
  else if c.toNat < 0x100 then ['\\', 'x'] ++ hexDigits 2 c.toNat
  else if c.toNat < 0x10000 then ['\\', 'u'] ++ hexDigits 4 c.toNat
  else ['\\', 'U'] ++ hexDigits 8 c.toNat

/-- The text between quotes, with escapes where it needs them. -/
def quoted (s : String) : String :=
  let cs := s.toList
  let quote := quoteFor cs
  String.ofList (quote :: cs.flatMap (quotedChar quote) ++ [quote])

/-- One byte between the given quotes: a character of ASCII, or a code. -/
def quotedByte (quote : Char) (byte : UInt8) : List Char :=
  if byte < 0x7F then quotedChar quote (Char.ofNat byte.toNat)
  else ['\\', 'x'] ++ hexDigits 2 byte.toNat

/-- The bytes between quotes, after a letter that tells them from a text. -/
def quotedBytes (bytes : List UInt8) : String :=
  let quote := quoteFor (bytes.map fun byte => Char.ofNat byte.toNat)
  String.ofList ('b' :: quote :: bytes.flatMap (quotedByte quote) ++ [quote])

/-- The quoted texts in square brackets, with commas between them. -/
def bracketed (texts : List String) : String :=
  "[" ++ ", ".intercalate (texts.map quoted) ++ "]"

end RamlInterfaces.Text
