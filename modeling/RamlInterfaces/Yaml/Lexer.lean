/-
**From a YAML text to its tokens.**

Indentation opens and closes block collections.  Whether a scalar or a collection is a key shows
only at the colon after it, so every place where a key may start is remembered, one for each level
of flow collections, and the token that starts a key is put there when the colon comes.

* `Lexer`: the tokens so far with the collections and possible keys that are open;
* `Lexer.next`: the lexer after one more token;
* `tokens`: the tokens of a text.
-/

import RamlInterfaces.Yaml.Block
import RamlInterfaces.Yaml.Property
import RamlInterfaces.Yaml.Quoted

namespace RamlInterfaces.Yaml

/-- A place where a key may have started: the number of tokens before it and its position; a
`required` one must turn out to be a key. -/
structure PossibleKey where
  level : Nat
  tokensBefore : Nat
  required : Bool
  index : Nat
  line : Nat
  column : Nat

/-- The tokens so far, the last one first, and what is open at the cursor. -/
structure Lexer where
  cursor : Cursor
  produced : List Token := []
  flowLevel : Nat := 0
  indent : Int := -1
  outerIndents : List Int := []
  keyAllowed : Bool := true
  possibleKeys : List PossibleKey := []

/-- The greatest distance from the start of a key to its colon. -/
def keyLengthLimit : Nat := 1024

namespace Lexer

/-- The lexer with one more token. -/
def emit (token : Token) (l : Lexer) : Lexer := { l with produced := token :: l.produced }

/-- The lexer inside a flow collection. -/
def inFlow (l : Lexer) : Bool := l.flowLevel != 0

/-- The lexer with its cursor moved on. -/
def moveTo (cursor : Cursor) (l : Lexer) : Lexer := { l with cursor }

/-- The lexer with a token put in after the first `tokensBefore` tokens. -/
def insertAt (tokensBefore : Nat) (token : Token) (l : Lexer) : Lexer :=
  let later := l.produced.length - tokensBefore
  { l with produced := l.produced.take later ++ token :: l.produced.drop later }

/-- A possible key that is too far behind the cursor. -/
def isStale (l : Lexer) (key : PossibleKey) : Bool :=
  key.line != l.cursor.line || keyLengthLimit < l.cursor.index - key.index

/-- The lexer without the possible keys that the predicate drops, none of which may be
required. -/
def dropKeys (drop : PossibleKey → Bool) (l : Lexer) : Except Fault Lexer :=
  if l.possibleKeys.any fun key => drop key && key.required then .error .malformed
  else .ok { l with possibleKeys := l.possibleKeys.filter (!drop ·) }

/-- The lexer without the possible key of its flow level. -/
def dropOwnKey (l : Lexer) : Except Fault Lexer := l.dropKeys (·.level == l.flowLevel)

/-- The lexer with a possible key at its cursor. -/
def saveKey (l : Lexer) : Except Fault Lexer :=
  if l.keyAllowed then do
    let l ← l.dropOwnKey
    let key : PossibleKey :=
      { level := l.flowLevel, tokensBefore := l.produced.length,
        required := !l.inFlow && l.indent == l.cursor.column, index := l.cursor.index,
        line := l.cursor.line, column := l.cursor.column }
    pure { l with possibleKeys := key :: l.possibleKeys }
  else pure l

/-- The lexer with the blocks closed that are indented more than a column. -/
def closeBlocks (column : Int) (l : Lexer) : Lexer :=
  if l.inFlow then l else go l.indent l.outerIndents l.produced
where
  /-- The blocks closed one after the other, from the innermost on. -/
  go (indent : Int) (outer : List Int) (produced : List Token) : Lexer :=
    if column < indent then
      match outer with
      | [] => { l with indent := -1, outerIndents := [], produced := .blockEnd :: produced }
      | next :: rest => go next rest (.blockEnd :: produced)
    else { l with indent, outerIndents := outer, produced }
  termination_by outer.length

/-- The column starts a block inside the open ones. -/
def opensBlock (column : Int) (l : Lexer) : Bool := l.indent < column

/-- The lexer with a block opened at a column. -/
def openBlock (column : Int) (l : Lexer) : Lexer :=
  { l with outerIndents := l.indent :: l.outerIndents, indent := column }

/-- The cursor after blanks, comments and line breaks, and whether a key may start there. -/
def skipGaps (inFlow : Bool) : Nat → Bool → Cursor → Bool × Cursor
  | 0, keyAllowed, c => (keyAllowed, c)
  | fuel + 1, keyAllowed, c =>
    match c.skipComment.lineBreak with
    | ([], c) => (keyAllowed, c)
    | (_, c) => skipGaps inFlow fuel (keyAllowed || !inFlow) c

/-- The lexer at its next token, with the blocks closed that end before it. -/
def toNextToken (l : Lexer) : Except Fault Lexer := do
  let atMark := l.cursor.index = 0 ∧ l.cursor.peek = some '\uFEFF'
  let start := if atMark then l.cursor.step else l.cursor
  let (keyAllowed, cursor) := skipGaps l.inFlow (start.rest.length + 1) l.keyAllowed start
  let l := { l with keyAllowed, cursor }
  let l ← l.dropKeys l.isStale
  pure (l.closeBlocks cursor.column)

/-- The end of the text. -/
def streamEnd (l : Lexer) : Except Fault Lexer := do
  let l ← (l.closeBlocks (-1)).dropOwnKey
  pure ({ l with keyAllowed := false, possibleKeys := [] }.emit .streamEnd)

/-- A directive, or a mark that starts or ends a document. -/
def documentToken (scan : Cursor → Except Fault (Token × Cursor)) (l : Lexer) :
    Except Fault Lexer := do
  let l ← (l.closeBlocks (-1)).dropOwnKey
  let (token, cursor) ← scan l.cursor
  pure ({ l with keyAllowed := false, cursor }.emit token)

/-- The bracket that opens a flow collection. -/
def flowStart (token : Token) (l : Lexer) : Except Fault Lexer := do
  let l ← l.saveKey
  pure ({ l with flowLevel := l.flowLevel + 1, keyAllowed := true,
                 cursor := l.cursor.step }.emit token)

/-- The bracket that closes a flow collection. -/
def flowEnd (token : Token) (l : Lexer) : Except Fault Lexer := do
  let l ← l.dropOwnKey
  pure ({ l with flowLevel := l.flowLevel - 1, keyAllowed := false,
                 cursor := l.cursor.step }.emit token)

/-- The comma of a flow collection. -/
def flowEntry (l : Lexer) : Except Fault Lexer := do
  let l ← { l with keyAllowed := true }.dropOwnKey
  pure ((l.moveTo l.cursor.step).emit .flowEntry)

/-- The dash before an entry of a block sequence. -/
def blockEntry (l : Lexer) : Except Fault Lexer := do
  let l ←
    if l.inFlow then pure l
    else if l.keyAllowed then
      pure (if l.opensBlock l.cursor.column then
        (l.openBlock l.cursor.column).emit .blockSequenceStart else l)
    else throw .malformed
  let l ← { l with keyAllowed := true }.dropOwnKey
  pure ((l.moveTo l.cursor.step).emit .blockEntry)

/-- The lexer with a block mapping opened at a column, if that starts one. -/
def openMapping (l : Lexer) : Except Fault Lexer :=
  if l.inFlow then pure l
  else if l.keyAllowed then
    pure (if l.opensBlock l.cursor.column then
      (l.openBlock l.cursor.column).emit .blockMappingStart else l)
  else throw .malformed

/-- The question mark before a key. -/
def explicitKey (l : Lexer) : Except Fault Lexer := do
  let l ← l.openMapping
  let l ← { l with keyAllowed := !l.inFlow }.dropOwnKey
  pure ((l.moveTo l.cursor.step).emit .key)

/-- The colon before a value: what the possible key of this level started is a key. -/
def mappingValue (l : Lexer) : Except Fault Lexer := do
  let l ←
    match l.possibleKeys.find? (·.level == l.flowLevel) with
    | some key =>
      let l := { l with possibleKeys := l.possibleKeys.filter (·.level != l.flowLevel) }
      let l := l.insertAt key.tokensBefore .key
      let l :=
        if !l.inFlow && l.opensBlock key.column then
          (l.openBlock key.column).insertAt key.tokensBefore .blockMappingStart
        else l
      pure { l with keyAllowed := false }
    | none => do
      let l ← l.openMapping
      { l with keyAllowed := !l.inFlow }.dropOwnKey
  pure ((l.moveTo l.cursor.step).emit .value)

/-- A token that may be a key or start one. -/
def keyToken (scan : Cursor → Except Fault (Token × Cursor)) (l : Lexer) : Except Fault Lexer := do
  let l ← l.saveKey
  let (token, cursor) ← scan l.cursor
  pure ({ l with keyAllowed := false, cursor }.emit token)

/-- A block scalar. -/
def blockScalar (folded : Bool) (l : Lexer) : Except Fault Lexer := do
  let l ← { l with keyAllowed := true }.dropOwnKey
  let (text, cursor) ← scanBlock folded l.indent l.cursor
  pure ((l.moveTo cursor).emit (.scalar (String.ofList text) false))

/-- A plain scalar; a key may start after it only where it ended with its line. -/
def plainScalar (l : Lexer) : Except Fault Lexer := do
  let l ← l.saveKey
  let (text, ended, cursor) := scanPlain l.inFlow (l.indent + 1) l.cursor
  pure ({ l with keyAllowed := ended, cursor }.emit (.scalar (String.ofList text) true))

/-- The quoted scalar at a cursor. -/
def quotedToken (quote : Char) (c : Cursor) : Except Fault (Token × Cursor) :=
  (scanQuoted quote c).map fun (text, c) => (.scalar (String.ofList text) false, c)

/-- The lexer after the token at its cursor, which is at no gap. -/
def tokenAt (l : Lexer) : Except Fault Lexer :=
  let c := l.cursor
  match c.rest with
  | [] => l.streamEnd
  | char :: rest =>
    let atGap := startsWithGap rest
    if char = '%' ∧ c.column = 0 then l.documentToken scanDirective
    else if c.column = 0 ∧ c.startsWithMark '-' then
      l.documentToken fun c => .ok (.documentStart, Cursor.steps 3 c)
    else if c.column = 0 ∧ c.startsWithMark '.' then
      l.documentToken fun c => .ok (.documentEnd, Cursor.steps 3 c)
    else if char = '[' then l.flowStart .flowSequenceStart
    else if char = '\x7b' then l.flowStart .flowMappingStart
    else if char = ']' then l.flowEnd .flowSequenceEnd
    else if char = '\x7d' then l.flowEnd .flowMappingEnd
    else if char = ',' then l.flowEntry
    else if char = '-' ∧ atGap then l.blockEntry
    else if char = '?' ∧ (l.inFlow || atGap) then l.explicitKey
    else if char = ':' ∧ (l.inFlow || atGap) then l.mappingValue
    else if char = '*' then
      l.keyToken fun c => (scanName c).map fun (name, c) => (.alias name, c)
    else if char = '&' then
      l.keyToken fun c => (scanName c).map fun (name, c) => (.anchor name, c)
    else if char = '!' then l.keyToken scanTag
    else if char = '|' ∧ l.inFlow = false then l.blockScalar false
    else if char = '>' ∧ l.inFlow = false then l.blockScalar true
    else if char = '\x27' ∨ char = '"' then l.keyToken (quotedToken char)
    else if startsPlain l.inFlow c.rest then l.plainScalar
    else .error .malformed

/-- The lexer after one more token. -/
def next (l : Lexer) : Except Fault Lexer := do
  let l ← l.toNextToken
  l.tokenAt

/-- The lexer after the rest of its text; where that cannot be cut any further a broken token
stands. -/
def finish : Nat → Lexer → Lexer
  | 0, l => l.emit (.broken .malformed)
  | fuel + 1, l =>
    match l.next with
    | .error fault => l.emit (.broken fault)
    | .ok l => if l.produced.head? = some .streamEnd then l else finish fuel l

end Lexer

/-- The tokens of a text, from first to last. -/
def tokens (text : List Char) : List Token :=
  (Lexer.finish (text.length + 2) { cursor := { rest := text } }).produced.reverse

end RamlInterfaces.Yaml
