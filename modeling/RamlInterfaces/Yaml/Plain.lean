/-
**Plain scalars of a YAML text.**

A plain scalar goes on over blanks and line breaks; a single break inside it counts as a space.

* `startsPlain`: a place where a plain scalar can start;
* `scanPlain`: the text of the plain scalar at a cursor.
-/

import RamlInterfaces.Yaml.Cursor

namespace RamlInterfaces.Yaml

/-- The characters that start other tokens. -/
def indicators : List Char :=
  ['-', '?', ':', ',', '[', ']', '\x7b', '\x7d', '#', '&', '*', '!', '|', '>', '\x27', '"', '%',
    '@', '\x60']

/-- The brackets and the comma of flow collections. -/
def flowMarks : List Char := [',', '[', ']', '\x7b', '\x7d']

/-- A plain scalar can start with the text; `flow` says that it is inside a flow collection. -/
def startsPlain (flow : Bool) : List Char → Bool
  | [] => false
  | c :: rest =>
    (!isGap c && !indicators.contains c) ||
      (!startsWithGap rest && (c == '-' || (!flow && (c == '?' || c == ':'))))

/-- The rest of a text ends a plain scalar after a colon. -/
def endsAfterColon (flow : Bool) : List Char → Bool
  | [] => true
  | c :: _ => isGap c || (flow && flowMarks.contains c)

/-- The characters of a plain scalar up to a blank, a line break or its end. -/
def plainWord (flow : Bool) : List Char → List Char
  | [] => []
  | c :: rest =>
    if isGap c || (c == ':' && endsAfterColon flow rest) ||
        (flow && (c == '?' || flowMarks.contains c)) then []
    else c :: plainWord flow rest

/-- The line breaks and spaces after a first line break, up to the mark of a document; nothing
where there is such a mark. -/
def plainBreaks : Nat → List Char → Cursor → Option (List Char) × Cursor
  | 0, breaks, c => (some breaks, c)
  | fuel + 1, breaks, c =>
    match c.rest with
    | [] => (some breaks, c)
    | char :: _ =>
      if char = ' ' then plainBreaks fuel breaks c.step
      else if isBreak char then
        let (lineBreak, after) := c.lineBreak
        if after.atDocumentMark then (none, after)
        else plainBreaks fuel (breaks ++ lineBreak) after
      else (some breaks, c)

/-- A line break together with the breaks after it, as they count inside a scalar. -/
def foldBreaks (lineBreak breaks : List Char) : List Char :=
  if lineBreak ≠ ['\n'] then lineBreak ++ breaks
  else if breaks.isEmpty then [' ']
  else breaks

/-- The blanks and breaks between two words of a plain scalar as they count in it, the cursor after
them, and whether a line ended among them. -/
def plainSpaces (c : Cursor) : List Char × Cursor × Bool :=
  let (blanks, c) := c.takeWhile (· == ' ')
  match c.rest with
  | [] => (blanks, c, false)
  | char :: _ =>
    if isBreak char then
      let (lineBreak, after) := c.lineBreak
      if after.atDocumentMark then ([], after, true)
      else
        match plainBreaks after.rest.length [] after with
        | (none, after) => ([], after, true)
        | (some breaks, after) => (foldBreaks lineBreak breaks, after, true)
    else (blanks, c, false)

/-- The words of a plain scalar, given what was read of it and the spaces after that. -/
def plainWords (flow : Bool) (indent : Int) :
    Nat → List Char → List Char → Bool → Cursor → List Char × Bool × Cursor
  | 0, text, _, ended, c => (text, ended, c)
  | fuel + 1, text, spaces, ended, c =>
    let word := plainWord flow c.rest
    if c.peek = some '#' ∨ word.isEmpty then (text, ended, c)
    else
      let text := text ++ spaces ++ word
      let (spaces, after, ended) := plainSpaces (Cursor.steps word.length c)
      if spaces.isEmpty ∨ (flow = false ∧ (after.column : Int) < indent) then (text, ended, after)
      else plainWords flow indent fuel text spaces ended after

/-- The text of the plain scalar at a cursor, whether a line ended after it, and the cursor after
it; outside flow collections it ends with the first line that is indented less. -/
def scanPlain (flow : Bool) (indent : Int) (c : Cursor) : List Char × Bool × Cursor :=
  plainWords flow indent c.rest.length [] [] false c

end RamlInterfaces.Yaml
