/-
**Encodings of text.**

* `Encoding`: the encodings that have a name;
* `Encoding.ofName?`: the encoding of a name, case and punctuation aside;
* `Encoding.encode?`: the bytes of a text, if the encoding has all its characters;
* `Encoding.decode?`: the text of bytes, if they are well formed;
* `Codec`, `Codecs`: the two ways between texts and bytes, and the codecs of names;
* `Encoding.codecs`: the codecs of the encodings that have a name here.
-/

import RamlInterfaces.File.CodePage
import RamlInterfaces.Text.Runs

namespace RamlInterfaces.File

/-- The order of the bytes of a unit. -/
inductive ByteOrder where
  | little
  | big
deriving DecidableEq, Repr

/-- An encoding of text; units without a given order have a mark of it in front. -/
inductive Encoding where
  | utf8
  | utf8Marked
  | ascii
  | latin1
  | page (table : CodePage)
  | utf16 (order : Option ByteOrder)
  | utf32 (order : Option ByteOrder)
deriving DecidableEq, Repr

/-- The bytes of a file. -/
abbrev Bytes := List UInt8

namespace Encoding

/-- A name of an encoding in small letters, with low lines for punctuation inside it. -/
def normalizedName (name : String) : String :=
  let words := Text.runs (fun c => c.isAlphanum || c == '.') name.toList
  String.ofList (Text.join ['_'] (words.map fun word => word.map Char.toLower))

/-- The names of the encodings. -/
def names : List (Encoding × List String) :=
  [(.utf8, ["utf_8", "utf8", "u8", "utf", "cp65001", "utf8_ucs2", "utf8_ucs4", "locale"]),
    (.utf8Marked, ["utf_8_sig"]),
    (.ascii, ["ascii", "us_ascii", "646", "us", "ansi_x3.4_1968", "ansi_x3_4_1968",
      "ansi_x3.4_1986", "cp367", "csascii", "ibm367", "iso646_us", "iso_646.irv_1991",
      "iso_ir_6"]),
    (.latin1, ["latin_1", "latin1", "latin", "l1", "iso_8859_1", "iso8859_1", "iso8859", "8859",
      "cp819", "ibm819", "csisolatin1", "iso_8859_1_1987", "iso_ir_100"]),
    (.utf16 none, ["utf_16", "utf16", "u16"]),
    (.utf16 (some .little), ["utf_16_le", "utf_16le", "unicodelittleunmarked"]),
    (.utf16 (some .big), ["utf_16_be", "utf_16be", "unicodebigunmarked"]),
    (.utf32 none, ["utf_32", "utf32", "u32"]),
    (.utf32 (some .little), ["utf_32_le", "utf_32le"]),
    (.utf32 (some .big), ["utf_32_be", "utf_32be"])]

/-- The encoding of a name. -/
def ofName? (name : String) : Option Encoding :=
  let known := normalizedName name
  ((names.find? fun entry => entry.2.contains known).map (·.1)).or
    ((CodePage.ofName? known).map .page)

/-- The byte of a character whose number is below a limit. -/
def singleByte? (limit : Nat) (c : Char) : Option UInt8 :=
  if c.toNat < limit then some (UInt8.ofNat c.toNat) else none

/-- The character of a byte below a limit. -/
def ofSingleByte? (limit : Nat) (byte : UInt8) : Option Char :=
  if byte.toNat < limit then some (Char.ofNat byte.toNat) else none

/-- The bytes of a unit of two bytes. -/
def unit16 (order : ByteOrder) (unit : Nat) : Bytes :=
  let bytes := [UInt8.ofNat unit, UInt8.ofNat (unit / 256)]
  if order = .little then bytes else bytes.reverse

/-- The bytes of a unit of four bytes. -/
def unit32 (order : ByteOrder) (unit : Nat) : Bytes :=
  let bytes := [UInt8.ofNat unit, UInt8.ofNat (unit / 0x100), UInt8.ofNat (unit / 0x10000),
    UInt8.ofNat (unit / 0x1000000)]
  if order = .little then bytes else bytes.reverse

/-- The units of two bytes of a character: one, or two for a character beyond them. -/
def units16 (c : Char) : List Nat :=
  let code := c.toNat
  if code < 0x10000 then [code]
  else [0xD800 + (code - 0x10000) / 0x400, 0xDC00 + (code - 0x10000) % 0x400]

/-- The bytes of a text in units of two bytes. -/
def encode16 (order : ByteOrder) (cs : List Char) : Bytes :=
  cs.flatMap fun c => (units16 c).flatMap (unit16 order)

/-- The bytes of a text in units of four bytes. -/
def encode32 (order : ByteOrder) (cs : List Char) : Bytes :=
  cs.flatMap fun c => unit32 order c.toNat

/-- The bytes of a text, if the encoding has all its characters. -/
def encode? (encoding : Encoding) (text : String) : Option Bytes :=
  let cs := text.toList
  let utf8 := text.toUTF8.toList
  match encoding with
  | .utf8 => some utf8
  | .utf8Marked => some ([0xEF, 0xBB, 0xBF] ++ utf8)
  | .ascii => cs.mapM (singleByte? 128)
  | .latin1 => cs.mapM (singleByte? 256)
  | .page table => cs.mapM table.byte?
  | .utf16 (some order) => some (encode16 order cs)
  | .utf16 none => some (encode16 .little ('\uFEFF' :: cs))
  | .utf32 (some order) => some (encode32 order cs)
  | .utf32 none => some (encode32 .little ('\uFEFF' :: cs))

/-- The text of bytes in the encoding of one to four bytes for a character. -/
def decode8? (bytes : Bytes) : Option (List Char) :=
  (String.fromUTF8? (ByteArray.mk bytes.toArray)).map String.toList

/-- The units of two bytes. -/
def join16? (order : ByteOrder) : Bytes → Option (List Nat)
  | [] => some []
  | a :: b :: rest =>
    let unit := if order = .little then a.toNat + 256 * b.toNat else b.toNat + 256 * a.toNat
    (join16? order rest).map (unit :: ·)
  | [_] => none

/-- The characters of units of two bytes. -/
def ofUnits16? : List Nat → Option (List Char)
  | [] => some []
  | unit :: rest =>
    if 0xD800 ≤ unit ∧ unit < 0xDC00 then
      match rest with
      | low :: rest =>
        if 0xDC00 ≤ low ∧ low < 0xE000 then
          (ofUnits16? rest).map
            (Char.ofNat (0x10000 + (unit - 0xD800) * 0x400 + (low - 0xDC00)) :: ·)
        else none
      | [] => none
    else if 0xDC00 ≤ unit ∧ unit < 0xE000 then none
    else (ofUnits16? rest).map (Char.ofNat unit :: ·)

/-- The text of bytes in units of two bytes. -/
def decode16? (order : ByteOrder) (bytes : Bytes) : Option (List Char) :=
  (join16? order bytes).bind ofUnits16?

/-- The text of bytes in units of four bytes. -/
def decode32? (order : ByteOrder) : Bytes → Option (List Char)
  | [] => some []
  | a :: b :: c :: d :: rest =>
    let unit (a b c d : UInt8) : Nat :=
      a.toNat + 0x100 * b.toNat + 0x10000 * c.toNat + 0x1000000 * d.toNat
    let code := if order = .little then unit a b c d else unit d c b a
    if code < 0xD800 ∨ (0xE000 ≤ code ∧ code ≤ 0x10FFFF) then
      (decode32? order rest).map (Char.ofNat code :: ·)
    else none
  | _ => none

/-- The text of bytes, if they are well formed. -/
def decode? (encoding : Encoding) (bytes : Bytes) : Option String :=
  let characters := match encoding with
    | .utf8 => decode8? bytes
    | .utf8Marked =>
      match bytes with
      | 0xEF :: 0xBB :: 0xBF :: rest => decode8? rest
      | _ => decode8? bytes
    | .ascii => bytes.mapM (ofSingleByte? 128)
    | .latin1 => bytes.mapM (ofSingleByte? 256)
    | .page table => bytes.mapM table.character?
    | .utf16 (some order) => decode16? order bytes
    | .utf16 none =>
      match bytes with
      | 0xFF :: 0xFE :: rest => decode16? .little rest
      | 0xFE :: 0xFF :: rest => decode16? .big rest
      | _ => decode16? .little bytes
    | .utf32 (some order) => decode32? order bytes
    | .utf32 none =>
      match bytes with
      | 0xFF :: 0xFE :: 0 :: 0 :: rest => decode32? .little rest
      | 0 :: 0 :: 0xFE :: 0xFF :: rest => decode32? .big rest
      | _ => decode32? .little bytes
  characters.map String.ofList

end Encoding

/-- A codec: the bytes of a text, if it has all its characters, and the text of bytes, if they are
well formed. -/
structure Codec where
  encode? : String → Option Bytes
  decode? : Bytes → Option String

/-- The codecs of the names of encodings. -/
abbrev Codecs := String → Option Codec

/-- The codecs of the encodings that have a name here. -/
def Encoding.codecs : Codecs := fun name =>
  (Encoding.ofName? name).map fun encoding => ⟨encoding.encode?, encoding.decode?⟩

end RamlInterfaces.File
