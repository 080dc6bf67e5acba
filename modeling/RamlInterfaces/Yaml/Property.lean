/-
**Anchors, tags and directives of a YAML text.**

* `scanName`: the name of an anchor or alias;
* `scanTag`: the handle and the suffix of a tag;
* `scanDirective`: a directive line.
-/

import RamlInterfaces.Number.Digits
import RamlInterfaces.Yaml.Cursor
import RamlInterfaces.Yaml.Token

namespace RamlInterfaces.Yaml

/-- What may follow the name of an anchor. -/
def endsName : List Char → Bool
  | [] => true
  | c :: _ => isGap c || ['?', ':', ',', ']', '\x7d', '%', '@', '\x60'].contains c

/-- The name of the anchor or alias at a cursor, and the cursor after it. -/
def scanName (c : Cursor) : Except Fault (String × Cursor) :=
  let (name, c) := c.step.takeWhile isNameChar
  if name.isEmpty || !endsName c.rest then .error .malformed else .ok (String.ofList name, c)

/-- A character that a tag may hold as it is. -/
def isUriChar (c : Char) : Bool :=
  isNameChar c ||
    [';', '/', '?', ':', '@', '&', '=', '+', '$', ',', '.', '!', '~', '*', '\x27', '(', ')', '[',
      ']'].contains c

/-- The byte whose two hexadecimal digits follow a percent sign. -/
def readUriByte? : List Char → Option UInt8
  | '%' :: high :: low :: _ => (Number.ofDigits? 16 [high, low]).map UInt8.ofNat
  | _ => none

/-- The bytes of the percent signs at a cursor. -/
def scanUriBytes : Nat → List UInt8 → Cursor → Except Fault (List UInt8 × Cursor)
  | 0, bytes, c => .ok (bytes, c)
  | fuel + 1, bytes, c =>
    if c.peek = some '%' then
      match readUriByte? c.rest with
      | some byte => scanUriBytes fuel (bytes ++ [byte]) (Cursor.steps 3 c)
      | none => .error .malformed
    else .ok (bytes, c)

/-- The characters of a tag at a cursor, percent signs decoded. -/
def scanUriChars : Nat → List Char → Cursor → Except Fault (List Char × Cursor)
  | 0, text, c => .ok (text, c)
  | fuel + 1, text, c =>
    match c.peek with
    | none => .ok (text, c)
    | some char =>
      if char = '%' then
        match scanUriBytes c.rest.length [] c with
        | .error fault => .error fault
        | .ok (bytes, c) =>
          match String.fromUTF8? (ByteArray.mk bytes.toArray) with
          | some decoded => scanUriChars fuel (text ++ decoded.toList) c
          | none => .error .malformed
      else if isUriChar char then scanUriChars fuel (text ++ [char]) c.step
      else .ok (text, c)

/-- The text of a tag at a cursor; there must be some. -/
def scanUri (c : Cursor) : Except Fault (String × Cursor) := do
  let (text, after) ← scanUriChars c.rest.length [] c
  if after.index = c.index then throw .malformed
  pure (String.ofList text, after)

/-- The handle at a cursor: an exclamation mark, or a name between two of them. -/
def scanHandle (c : Cursor) : Except Fault (String × Cursor) :=
  if c.peek = some '!' then
    let (name, after) := c.step.takeWhile isNameChar
    if name.isEmpty ∧ after.peek = some ' ' then .ok ("!", after)
    else if after.peek = some '!' then .ok (String.ofList ('!' :: name ++ ['!']), after.step)
    else .error .malformed
  else .error .malformed

/-- The tag at a cursor. -/
def scanTag (c : Cursor) : Except Fault (Token × Cursor) := do
  let next := c.step
  let (handle, suffix, after) ←
    if next.peek = some '<' then do
      let (uri, after) ← scanUri next.step
      if after.peek = some '>' then pure (none, uri, after.step) else throw .malformed
    else if startsWithGap next.rest then pure (none, "!", next)
    else if (next.rest.takeWhile fun char => char ≠ ' ' && !isBreak char).contains '!' then do
      let (handle, after) ← scanHandle c
      let (uri, after) ← scanUri after
      pure (some handle, uri, after)
    else do
      let (uri, after) ← scanUri next
      pure (some "!", uri, after)
  if startsWithSpace after.rest then pure (.tag handle suffix, after) else throw .malformed

/-- The number of a version at a cursor. -/
def scanVersionNumber (c : Cursor) : Except Fault (Nat × Cursor) :=
  let (digits, c) := c.takeWhile Char.isDigit
  match Number.ofDigits? 10 digits with
  | some n => .ok (n, c)
  | none => .error .malformed

/-- The version of a directive at a cursor. -/
def scanVersion (c : Cursor) : Except Fault (Token × Cursor) := do
  let (major, c) ← scanVersionNumber (c.skipWhile (· == ' '))
  if c.peek ≠ some '.' then throw .malformed
  let (_, c) ← scanVersionNumber c.step
  if startsWithSpace c.rest then pure (.version major, c) else throw .malformed

/-- The handle of a directive and what it stands for. -/
def scanHandleDirective (c : Cursor) : Except Fault (Token × Cursor) := do
  let (handle, c) ← scanHandle (c.skipWhile (· == ' '))
  if c.peek ≠ some ' ' then throw .malformed
  let (expansion, c) ← scanUri (c.skipWhile (· == ' '))
  if startsWithSpace c.rest then pure (.handle handle expansion, c) else throw .malformed

/-- The directive at a cursor. -/
def scanDirective (c : Cursor) : Except Fault (Token × Cursor) := do
  let (name, c) := c.step.takeWhile isNameChar
  if name.isEmpty || !startsWithSpace c.rest then throw .malformed
  let (token, c) ←
    if name = ['Y', 'A', 'M', 'L'] then scanVersion c
    else if name = ['T', 'A', 'G'] then scanHandleDirective c
    else pure (Token.otherDirective, c.skipWhile (!isBreak ·))
  let c := c.skipComment
  if startsWithBreak c.rest then pure (token, c.lineBreak.2) else throw .malformed

end RamlInterfaces.Yaml
