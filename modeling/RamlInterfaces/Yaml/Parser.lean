/-
**From the tokens of a YAML text to its node.**

A text holds one document.  An anchor names a node for the aliases after it, and may not come
twice.  Collections may be nested up to a limit.

* `Parsing`: the tokens that are left, the anchors so far and the depth;
* `node`: the node at the next tokens;
* `document`: the node of a text, if there is any.
-/

import RamlInterfaces.Yaml.Node
import RamlInterfaces.Yaml.Token

namespace RamlInterfaces.Yaml

/-- The tokens that are left, the nodes of the anchors so far and the number of collections around
the next token.  While the collection of an anchor is being read, its mark stands for it. -/
structure Parsing where
  left : List Token
  anchors : List (String × Node) := []
  depth : Nat := 0

/-- A step of reading nodes. -/
abbrev Parser (α : Type) := StateT Parsing (Except Fault) α

namespace Parser

/-- The next token. -/
def peek : Parser Token := do
  let parsing ← get
  return parsing.left.headD .streamEnd

/-- Goes on by one token. -/
def skip : Parser Unit := modify fun parsing => { parsing with left := parsing.left.tail }

/-- The tokens do not form a document; a broken token has its own reason. -/
def refuse {α : Type} : Parser α := do
  match ← peek with
  | .broken fault => throw fault
  | _ => throw .malformed

/-- Goes on over a token that must come. -/
def expect (token : Token) : Parser Unit := do
  if (← peek) = token then skip else refuse

/-- The node that an alias refers to. -/
def aliased (name : String) : Parser Node := do
  match (← get).anchors.find? (·.1 == name) with
  | some (_, node) => return node
  | none => throw .malformed

/-- The token starts a mapping. -/
def startsMapping (token : Token) : Bool :=
  token == .flowMappingStart || token == .blockMappingStart

/-- Makes an anchor known whose node starts at the next token. -/
def openAnchor (name : String) : Parser Unit := do
  let mark := Node.enclosing (startsMapping (← peek))
  let parsing ← get
  if parsing.anchors.any (·.1 == name) then throw .malformed
  set { parsing with anchors := (name, mark) :: parsing.anchors }

/-- Gives an anchor its node. -/
def closeAnchor (name : String) (node : Node) : Parser Unit :=
  modify fun parsing =>
    { parsing with
      anchors := parsing.anchors.map fun entry =>
        if entry.1 == name then (name, node) else entry }

/-- The greatest number of collections around a node. -/
def nestingLimit : Nat := 490

/-- What is read inside one more collection. -/
def nested {α : Type} (inside : Parser α) : Parser α := do
  let parsing ← get
  if nestingLimit ≤ parsing.depth then throw .nestedTooDeeply
  set { parsing with depth := parsing.depth + 1 }
  let read ← inside
  modify fun after => { after with depth := parsing.depth }
  return read

/-- The handles of tags and what they stand for. -/
abbrev Handles := List (String × String)

/-- The full name of a tag. -/
def tagName (handles : Handles) (handle : Option String) (suffix : String) : Parser String :=
  match handle with
  | none => pure suffix
  | some handle =>
    match handles.find? (·.1 == handle) with
    | some (_, expansion) => pure (expansion ++ suffix)
    | none => throw .malformed

/-- The tag before a node, if there is one. -/
def tagProperty (handles : Handles) : Parser (Option String) := do
  match ← peek with
  | .tag handle suffix =>
    skip
    return some (← tagName handles handle suffix)
  | _ => return none

/-- The anchor before a node, if there is one. -/
def anchorProperty : Parser (Option String) := do
  match ← peek with
  | .anchor name =>
    skip
    return some name
  | _ => return none

/-- The anchor and the tag before a node, in any order. -/
def properties (handles : Handles) : Parser (Option String × Option String) := do
  match ← anchorProperty with
  | some anchor => return (some anchor, ← tagProperty handles)
  | none =>
    match ← tagProperty handles with
    | some tag => return (← anchorProperty, some tag)
    | none => return (none, none)

/-- The tag of a scalar: the one written, or what its text implies where the text is plain or the
tag is the mark alone. -/
def scalarTag (tag : Option String) (text : String) (plain : Bool) : Tag :=
  match tag with
  | some "!" => .ofPlain text
  | some name => .ofName name
  | none => if plain then .ofPlain text else .text

/-- The tag of a collection: the one written, or that of its kind. -/
def collectionTag (tag : Option String) (kind : Tag) : Tag :=
  match tag with
  | some "!" | none => kind
  | some name => .ofName name

/-- What may follow in place of a value in a block mapping. -/
def endsBlockMember (token : Token) : Bool :=
  token == .key || token == .value || token == .blockEnd

/-- What may follow in place of a value in a flow mapping. -/
def endsFlowMember (close token : Token) : Bool :=
  token == .value || token == .flowEntry || token == close

mutual

/-- The node at the next tokens; `block` allows block collections, and `loose` a block sequence
without indentation of its own. -/
def node (handles : Handles) : Nat → Bool → Bool → Parser Node
  | 0, _, _ => throw .malformed
  | fuel + 1, block, loose => do
    match ← peek with
    | .alias name =>
      skip
      aliased name
    | _ =>
      let (anchor, tag) ← properties handles
      if let some name := anchor then openAnchor name
      let read ← content handles fuel block loose (anchor.isSome || tag.isSome) tag
      if let some name := anchor then closeAnchor name read
      return read

/-- The node at the next tokens without its properties; `described` says that it had some. -/
def content (handles : Handles) : Nat → Bool → Bool → Bool → Option String → Parser Node
  | 0, _, _, _, _ => throw .malformed
  | fuel + 1, block, loose, described, tag => do
    match ← peek, block, loose with
    | .blockEntry, _, true =>
      return .sequence (collectionTag tag .sequence) (← nested (looseItems handles fuel))
    | .scalar text plain, _, _ =>
      skip
      return .scalar (scalarTag tag text (plain && tag.isNone)) text
    | .flowSequenceStart, _, _ =>
      skip
      return .sequence (collectionTag tag .sequence) (← nested (flowItems handles fuel true))
    | .flowMappingStart, _, _ =>
      skip
      return .mapping (collectionTag tag .mapping) (← nested (flowPairs handles fuel true))
    | .blockSequenceStart, true, _ =>
      skip
      return .sequence (collectionTag tag .sequence) (← nested (blockItems handles fuel))
    | .blockMappingStart, true, _ =>
      skip
      return .mapping (collectionTag tag .mapping) (← nested (blockPairs handles fuel))
    | _, _, _ => if described then return .scalar (scalarTag tag "" true) "" else refuse

/-- The items of a block sequence. -/
def blockItems (handles : Handles) : Nat → Parser (List Node)
  | 0 => throw .malformed
  | fuel + 1 => do
    match ← peek with
    | .blockEntry =>
      skip
      let next ← peek
      let item ←
        if next == .blockEntry || next == .blockEnd then pure .empty
        else node handles fuel true false
      return item :: (← blockItems handles fuel)
    | .blockEnd =>
      skip
      return []
    | _ => refuse

/-- The items of a block sequence without indentation of its own. -/
def looseItems (handles : Handles) : Nat → Parser (List Node)
  | 0 => throw .malformed
  | fuel + 1 => do
    match ← peek with
    | .blockEntry =>
      skip
      let next ← peek
      let item ←
        if next == .blockEntry || endsBlockMember next then pure .empty
        else node handles fuel true false
      return item :: (← looseItems handles fuel)
    | _ => return []

/-- A key or value of a block mapping, after its mark. -/
def blockMember (handles : Handles) : Nat → Parser Node
  | 0 => throw .malformed
  | fuel + 1 => do
    if endsBlockMember (← peek) then return .empty else node handles fuel true true

/-- The entries of a block mapping. -/
def blockPairs (handles : Handles) : Nat → Parser (List (Node × Node))
  | 0 => throw .malformed
  | fuel + 1 => do
    match ← peek with
    | .key =>
      skip
      let key ← blockMember handles fuel
      let value ← do
        if (← peek) == .value then
          skip
          blockMember handles fuel
        else pure .empty
      return (key, value) :: (← blockPairs handles fuel)
    | .blockEnd =>
      skip
      return []
    | _ => refuse

/-- A key or value of a flow collection, after its mark. -/
def flowMember (handles : Handles) (ends : Token → Bool) : Nat → Parser Node
  | 0 => throw .malformed
  | fuel + 1 => do
    if ends (← peek) then return .empty else node handles fuel false false

/-- A key after its mark, and the value after it, inside a flow collection. -/
def flowPair (handles : Handles) (close : Token) : Nat → Parser (Node × Node)
  | 0 => throw .malformed
  | fuel + 1 => do
    let key ← flowMember handles (endsFlowMember close) fuel
    if (← peek) == .value then
      skip
      let value ← flowMember handles (fun token => token == .flowEntry || token == close) fuel
      return (key, value)
    else return (key, .empty)

/-- The items of a flow sequence; a key among them makes a mapping of one entry. -/
def flowItems (handles : Handles) : Nat → Bool → Parser (List Node)
  | 0, _ => throw .malformed
  | fuel + 1, first => do
    if (← peek) == .flowSequenceEnd then
      skip
      return []
    unless first do expect .flowEntry
    match ← peek with
    | .key =>
      skip
      let entry ← nested (flowPair handles .flowSequenceEnd fuel)
      return .mapping .mapping [entry] :: (← flowItems handles fuel false)
    | .flowSequenceEnd =>
      skip
      return []
    | _ =>
      let item ← node handles fuel false false
      return item :: (← flowItems handles fuel false)

/-- The entries of a flow mapping; a node without a colon is a key without a value. -/
def flowPairs (handles : Handles) : Nat → Bool → Parser (List (Node × Node))
  | 0, _ => throw .malformed
  | fuel + 1, first => do
    if (← peek) == .flowMappingEnd then
      skip
      return []
    unless first do expect .flowEntry
    match ← peek with
    | .key =>
      skip
      let entry ← flowPair handles .flowMappingEnd fuel
      return entry :: (← flowPairs handles fuel false)
    | .flowMappingEnd =>
      skip
      return []
    | _ =>
      let key ← node handles fuel false false
      return (key, .empty) :: (← flowPairs handles fuel false)

end

/-- What the directives before a document say: whether a version was given, and the handles. -/
def directives : Nat → Bool → Handles → Parser Handles
  | 0, _, _ => throw .malformed
  | fuel + 1, versioned, handles => do
    match ← peek with
    | .version major =>
      if versioned || major ≠ 1 then throw .malformed
      skip
      directives fuel true handles
    | .handle handle expansion =>
      if handles.any (·.1 == handle) then throw .malformed
      skip
      directives fuel versioned ((handle, expansion) :: handles)
    | .otherDirective =>
      skip
      directives fuel versioned handles
    | _ => return handles

/-- The handles that every document has. -/
def standardHandles : Handles := [("!", "!"), ("!!", "tag:yaml.org,2002:")]

/-- The token is a directive. -/
def isDirective : Token → Bool
  | .version _ | .handle _ _ | .otherDirective => true
  | _ => false

/-- The tokens after a document hold no other one. -/
def noMoreDocuments : Nat → Parser Unit
  | 0 => throw .malformed
  | fuel + 1 => do
    match ← peek with
    | .documentEnd =>
      skip
      noMoreDocuments fuel
    | .streamEnd => return ()
    | _ => refuse

/-- The node of the only document; nothing where there is none. -/
def onlyDocument (fuel : Nat) : Parser (Option Node) := do
  let first ← peek
  if first == .streamEnd then return none
  let root ←
    if isDirective first || first == .documentStart then do
      let own ← directives fuel false []
      expect .documentStart
      let next ← peek
      if isDirective next || next == .documentStart || next == .documentEnd || next == .streamEnd
      then pure .empty
      else node (own ++ standardHandles) fuel true false
    else node standardHandles fuel true false
  noMoreDocuments fuel
  return some root

end Parser

/-- The node of the tokens of a text, if there is any. -/
def document (tokens : List Token) : Except Fault (Option Node) :=
  (Parser.onlyDocument (4 * tokens.length + 16)).run' { left := tokens }

end RamlInterfaces.Yaml
