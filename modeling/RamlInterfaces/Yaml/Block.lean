/-
**Block scalars of a YAML text.**

A literal block keeps its line breaks, and a folded one reads a single break between lines that do
not start with a blank as a space.  A header chooses the indentation and what becomes of the breaks
at the end.

* `BlockHeader`, `scanBlockHeader`: the header;
* `scanBlock`: the text of the block scalar at a cursor.
-/

import RamlInterfaces.Yaml.Token
import RamlInterfaces.Yaml.Cursor

namespace RamlInterfaces.Yaml

/-- What becomes of the line breaks at the end of a block: none is kept, one, or all. -/
inductive Chomping where
  | strip
  | clip
  | keep
deriving DecidableEq, Repr

/-- The header of a block: its chomping, and its indentation where that is given. -/
structure BlockHeader where
  chomping : Chomping
  increment : Option Nat

/-- The chomping mark at a cursor. -/
def scanChomping (c : Cursor) : Option Chomping × Cursor :=
  match c.peek with
  | some '+' => (some .keep, c.step)
  | some '-' => (some .strip, c.step)
  | _ => (none, c)

/-- The indentation digit at a cursor, which may not be zero. -/
def scanIncrement (c : Cursor) : Except Fault (Option Nat × Cursor) :=
  match c.peek with
  | some digit =>
    if digit = '0' then .error .malformed
    else if digit.isDigit then .ok (some (digit.toNat - '0'.toNat), c.step)
    else .ok (none, c)
  | none => .ok (none, c)

/-- The header of a block at a cursor: the two marks in any order, then blanks and perhaps a
comment to the end of the line. -/
def scanBlockHeader (c : Cursor) : Except Fault (BlockHeader × Cursor) := do
  let (before, c) := scanChomping c
  let (increment, c) ← scanIncrement c
  let (after, c) :=
    if before.isNone ∧ increment.isSome then scanChomping c else (none, c)
  if startsWithSpace c.rest then
    let c := c.skipComment
    if startsWithBreak c.rest then
      pure (⟨(before.or after).getD .clip, increment⟩, c.lineBreak.2)
    else throw .malformed
  else throw .malformed

/-- The line breaks before the first line of a block, and the greatest column among their
spaces. -/
def blockIndentation : Nat → List Char → Nat → Cursor → List Char × Nat × Cursor
  | 0, breaks, deepest, c => (breaks, deepest, c)
  | fuel + 1, breaks, deepest, c =>
    match c.rest with
    | [] => (breaks, deepest, c)
    | char :: _ =>
      if char = ' ' then
        let c := c.step
        blockIndentation fuel breaks (max deepest c.column) c
      else if isBreak char then
        let (lineBreak, c) := c.lineBreak
        blockIndentation fuel (breaks ++ lineBreak) deepest c
      else (breaks, deepest, c)

/-- The cursor after the spaces up to a column. -/
def skipIndent (indent : Nat) (c : Cursor) : Cursor :=
  Cursor.steps ((c.rest.take (indent - c.column)).takeWhile (· == ' ')).length c

/-- The line breaks between two lines of a block, and the cursor in the next one. -/
def blockBreaks (indent : Nat) : Nat → List Char → Cursor → List Char × Cursor
  | 0, breaks, c => (breaks, c)
  | fuel + 1, breaks, c =>
    let c := skipIndent indent c
    match c.lineBreak with
    | ([], c) => (breaks, c)
    | (lineBreak, c) => blockBreaks indent fuel (breaks ++ lineBreak) c

/-- The cursor is in a line of the block. -/
def inBlock (indent : Nat) (c : Cursor) : Bool := c.column == indent && !c.rest.isEmpty

/-- The text that follows starts with a space or a tab. -/
def startsWithBlank : List Char → Bool
  | [] => false
  | c :: _ => isBlank c

/-- The lines of a block, given what was read of it: the text, the last line break, and the breaks
after it. -/
def blockLines (folded : Bool) (indent : Nat) :
    Nat → List Char → List Char → List Char → Cursor → List Char × List Char × List Char × Cursor
  | 0, text, lineBreak, breaks, c => (text, lineBreak, breaks, c)
  | fuel + 1, text, lineBreak, breaks, c =>
    if inBlock indent c then
      let leading := startsWithBlank c.rest
      let (line, c) := c.takeWhile (!isBreak ·)
      let text := text ++ breaks ++ line
      let (lineBreak, c) := c.lineBreak
      let (breaks, c) := blockBreaks indent (c.rest.length + 1) [] c
      if inBlock indent c then
        let between :=
          if folded && lineBreak == ['\n'] && !leading && !startsWithBlank c.rest then
            if breaks.isEmpty then [' '] else []
          else lineBreak
        blockLines folded indent fuel (text ++ between) lineBreak breaks c
      else (text, lineBreak, breaks, c)
    else (text, lineBreak, breaks, c)

/-- The text of the block scalar at a cursor, and the cursor after it; `parent` is the indentation
of the collection around it. -/
def scanBlock (folded : Bool) (parent : Int) (c : Cursor) : Except Fault (List Char × Cursor) := do
  let (header, c) ← scanBlockHeader c.step
  let least := max 1 (parent + 1).toNat
  let (indent, breaks, c) := match header.increment with
    | none =>
      let (breaks, deepest, c) := blockIndentation c.rest.length [] 0 c
      (max least deepest, breaks, c)
    | some increment =>
      let indent := least + increment - 1
      let (breaks, c) := blockBreaks indent (c.rest.length + 1) [] c
      (indent, breaks, c)
  let (text, lineBreak, breaks, c) := blockLines folded indent (c.rest.length + 1) [] [] breaks c
  let tail := match header.chomping with
    | .strip => []
    | .clip => lineBreak
    | .keep => lineBreak ++ breaks
  pure (text ++ tail, c)

end RamlInterfaces.Yaml
