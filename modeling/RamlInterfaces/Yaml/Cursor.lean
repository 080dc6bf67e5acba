/-
**A place in a YAML text.**

A cursor knows the text that follows it and its place in lines and columns.

* `isBreak`, `isGap`, `startsWithGap`: line breaks, blanks with line breaks, and a text that begins
  with one or is over;
* `Cursor.step`, `Cursor.steps`: going on by characters;
* `Cursor.lineBreak`: going on over a line break;
* `Cursor.atDocumentMark`: a line that starts or ends a document.
-/

namespace RamlInterfaces.Yaml

/-- A character that a YAML text may hold. -/
def isAllowed (c : Char) : Bool :=
  let code := c.toNat
  code == 9 || code == 10 || code == 13 || (0x20 ≤ code && code ≤ 0x7E) || code == 0x85 ||
    (0xA0 ≤ code && code ≤ 0xD7FF) || (0xE000 ≤ code && code ≤ 0xFFFD) || 0x10000 ≤ code

/-- A character that breaks lines. -/
def isBreak (c : Char) : Bool :=
  c == '\n' || c == '\r' || c == '\u0085' || c == '\u2028' || c == '\u2029'

/-- A space or a tab. -/
def isBlank (c : Char) : Bool := c == ' ' || c == '\t'

/-- A blank or a line break. -/
def isGap (c : Char) : Bool := isBlank c || isBreak c

/-- A character of the names of anchors, handles and directives. -/
def isNameChar (c : Char) : Bool := c.isAlphanum || c == '-' || c == '_'

/-- The text that follows is empty or starts with a blank or a line break. -/
def startsWithGap : List Char → Bool
  | [] => true
  | c :: _ => isGap c

/-- The text that follows is empty or starts with a space or a line break. -/
def startsWithSpace : List Char → Bool
  | [] => true
  | c :: _ => c == ' ' || isBreak c

/-- The text that follows is empty or starts with a line break. -/
def startsWithBreak : List Char → Bool
  | [] => true
  | c :: _ => isBreak c

/-- A place in a text. -/
structure Cursor where
  rest : List Char
  index : Nat := 0
  line : Nat := 0
  column : Nat := 0
deriving Repr

namespace Cursor

/-- The next character. -/
def peek (c : Cursor) : Option Char := c.rest.head?

/-- The cursor after the next character. -/
def step (c : Cursor) : Cursor :=
  match c.rest with
  | [] => c
  | char :: rest =>
    if isBreak char && !(char == '\r' && rest.head? == some '\n') then
      { rest, index := c.index + 1, line := c.line + 1, column := 0 }
    else
      { rest, index := c.index + 1, line := c.line,
        column := if char = '\uFEFF' then c.column else c.column + 1 }

/-- The cursor after the next `count` characters. -/
def steps : Nat → Cursor → Cursor
  | 0, c => c
  | count + 1, c => steps count c.step

/-- The cursor after the longest run of characters that satisfy `p`. -/
def skipWhile (p : Char → Bool) (c : Cursor) : Cursor := steps (c.rest.takeWhile p).length c

/-- The longest run of characters that satisfy `p`, and the cursor after it. -/
def takeWhile (p : Char → Bool) (c : Cursor) : List Char × Cursor :=
  (c.rest.takeWhile p, c.skipWhile p)

/-- The line break at the cursor, as it counts in a scalar, and the cursor after it. -/
def lineBreak (c : Cursor) : List Char × Cursor :=
  match c.rest with
  | '\r' :: '\n' :: _ => (['\n'], c.step.step)
  | char :: _ =>
    if char = '\n' ∨ char = '\r' ∨ char = '\u0085' then (['\n'], c.step)
    else if char = '\u2028' ∨ char = '\u2029' then ([char], c.step)
    else ([], c)
  | [] => ([], c)

/-- The text from the cursor on starts with three of the character and then a gap. -/
def startsWithMark (mark : Char) (c : Cursor) : Bool :=
  match c.rest with
  | first :: second :: third :: rest =>
    first == mark && second == mark && third == mark && startsWithGap rest
  | _ => false

/-- The text from the cursor on starts with a mark that separates documents. -/
def atDocumentMark (c : Cursor) : Bool := c.startsWithMark '-' || c.startsWithMark '.'

/-- The cursor after spaces and a comment. -/
def skipComment (c : Cursor) : Cursor :=
  let c := c.skipWhile (· == ' ')
  if c.peek = some '#' then c.skipWhile (!isBreak ·) else c

end Cursor

end RamlInterfaces.Yaml
