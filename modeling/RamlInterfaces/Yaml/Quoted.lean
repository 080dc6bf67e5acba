/-
**Quoted scalars of a YAML text.**

Between apostrophes only a doubled apostrophe is special; between double quotes a backslash starts
an escape.  Line breaks in both count as in plain scalars.

* `escapeChar?`, `escapeWidth?`: the escapes that stand for one character, and those by code;
* `scanQuoted`: the text of the quoted scalar at a cursor.
-/

import RamlInterfaces.Number.Digits
import RamlInterfaces.Yaml.Token
import RamlInterfaces.Yaml.Plain

namespace RamlInterfaces.Yaml

/-- The character that a letter after a backslash stands for. -/
def escapeChar? : Char → Option Char
  | '0' => some '\x00'
  | 'a' => some '\x07'
  | 'b' => some '\x08'
  | 't' => some '\t'
  | '\t' => some '\t'
  | 'n' => some '\n'
  | 'v' => some '\x0B'
  | 'f' => some '\x0C'
  | 'r' => some '\r'
  | 'e' => some '\x1B'
  | ' ' => some ' '
  | '"' => some '"'
  | '\\' => some '\\'
  | '/' => some '/'
  | 'N' => some '\u0085'
  | '_' => some '\u00A0'
  | 'L' => some '\u2028'
  | 'P' => some '\u2029'
  | _ => none

/-- The number of hexadecimal digits after a letter that names a character by its code. -/
def escapeWidth? : Char → Option Nat
  | 'x' => some 2
  | 'u' => some 4
  | 'U' => some 8
  | _ => none

/-- The character of a code; a code that only half a character has stands for the replacement
character. -/
def charOfCode (code : Nat) : Except Fault Char :=
  if 0x10FFFF < code then .error .noCharacter
  else if 0xD800 ≤ code ∧ code ≤ 0xDFFF then .ok '\uFFFD'
  else .ok (Char.ofNat code)

/-- The character whose code is written in so many hexadecimal digits. -/
def readCode (width : Nat) (cs : List Char) : Except Fault Char :=
  let digits := cs.take width
  if digits.length < width then .error .malformed
  else match Number.ofDigits? 16 digits with
    | some code => charOfCode code
    | none => .error .malformed

/-- The line breaks inside a quoted scalar with the blanks around them; a document cannot end
there. -/
def quotedBreaks : Nat → List Char → Cursor → Except Fault (List Char × Cursor)
  | 0, breaks, c => .ok (breaks, c)
  | fuel + 1, breaks, c =>
    if c.atDocumentMark then .error .malformed
    else
      let c := c.skipWhile isBlank
      match c.lineBreak with
      | ([], c) => .ok (breaks, c)
      | (lineBreak, c) => quotedBreaks fuel (breaks ++ lineBreak) c

/-- The blanks and breaks between two words of a quoted scalar as they count in it. -/
def quotedSpaces (c : Cursor) : Except Fault (List Char × Cursor) :=
  let (blanks, c) := c.takeWhile isBlank
  match c.rest with
  | [] => .error .malformed
  | char :: _ =>
    if isBreak char then
      let (lineBreak, after) := c.lineBreak
      match quotedBreaks (after.rest.length + 1) [] after with
      | .ok (breaks, after) => .ok (foldBreaks lineBreak breaks, after)
      | .error fault => .error fault
    else .ok (blanks, c)

/-- What the escape after a backslash stands for. -/
def readEscape (c : Cursor) : Except Fault (List Char × Cursor) :=
  match c.peek with
  | none => .error .malformed
  | some letter =>
    match escapeChar? letter with
    | some char => .ok ([char], c.step)
    | none =>
      match escapeWidth? letter with
      | some width =>
        match readCode width c.step.rest with
        | .ok char => .ok ([char], Cursor.steps width c.step)
        | .error fault => .error fault
      | none =>
        if isBreak letter then quotedBreaks (c.rest.length + 1) [] c.lineBreak.2
        else .error .malformed

/-- The text of a quoted scalar up to its closing quote, given what was read of it. -/
def quotedBody (quote : Char) : Nat → List Char → Cursor → Except Fault (List Char × Cursor)
  | 0, _, _ => .error .malformed
  | fuel + 1, text, c =>
    match c.rest with
    | [] => .error .malformed
    | char :: rest =>
      if isGap char then
        match quotedSpaces c with
        | .ok (spaces, after) => quotedBody quote fuel (spaces.reverse ++ text) after
        | .error fault => .error fault
      else if char = quote then
        if quote = '\x27' ∧ rest.head? = some quote then
          quotedBody quote fuel (quote :: text) c.step.step
        else .ok (text.reverse, c.step)
      else if char = '\\' ∧ quote = '"' then
        match readEscape c.step with
        | .ok (chars, after) => quotedBody quote fuel (chars.reverse ++ text) after
        | .error fault => .error fault
      else quotedBody quote fuel (char :: text) c.step

/-- The text of the quoted scalar at a cursor, and the cursor after it. -/
def scanQuoted (quote : Char) (c : Cursor) : Except Fault (List Char × Cursor) :=
  quotedBody quote (c.rest.length + 1) [] c.step

end RamlInterfaces.Yaml
