/-
**The value of a YAML document.**

A node denotes a value if its text or its content fits its tag.  Of several nodes that do not, the
one nearest to the root counts, and of those at one depth the first.

* `scalarContent`: the scalar that a text denotes under a tag;
* `Content`: a value, with the faults in it and their depths;
* `contentOf`: the value of a node;
* `read`: the value of a text.
-/

import RamlInterfaces.Number.Reading
import RamlInterfaces.Text.Base64
import RamlInterfaces.Value.Basic
import RamlInterfaces.Yaml.Lexer
import RamlInterfaces.Yaml.Parser

namespace RamlInterfaces.Yaml

/-- Whether a sign in front is a minus, and the text after the sign. -/
def splitSign (cs : List Char) : Bool × List Char := (cs.head? == some '-', withoutSign cs)

/-- The integer that digits in base sixty denote. -/
def sixtiesInt? (parts : List (List Char)) : Option Int :=
  parts.foldl (fun sum part =>
    match sum, Number.readInt? 10 part with
    | some sum, some n => some (sum * 60 + n)
    | _, _ => none) (some 0)

/-- The integer that a text without low lines denotes. -/
def intContent? (text : List Char) : Option Int :=
  let (negative, unsigned) := splitSign (text.filter (· != '_'))
  let size :=
    match unsigned with
    | [] => none
    | ['0'] => some 0
    | '0' :: 'b' :: digits => Number.readInt? 2 digits
    | '0' :: 'x' :: digits => Number.readInt? 16 digits
    | '0' :: digits => Number.readInt? 8 ('0' :: digits)
    | _ =>
      if unsigned.contains ':' then sixtiesInt? (colonParts unsigned)
      else Number.readInt? 10 unsigned
  size.map fun n => if negative then -n else n

/-- The number that a notation with blanks around it denotes. -/
def readTrimmed (cs : List Char) : Option Binary64 :=
  Number.readBinary64 (Text.dropLastWhile Text.isBlank (Text.dropBlanks cs))

/-- The sum of the parts of a number in base sixty, the last part first, each one times its
weight. -/
def sixtiesSum (weight : Nat) (sum : Binary64) : List (List Char) → Option Binary64
  | [] => some sum
  | part :: rest =>
    match readTrimmed part with
    | some x => sixtiesSum (weight * 60) (sum.add (x.mul (Binary64.ofInt weight))) rest
    | none => none

/-- The number that a text denotes. -/
def floatContent? (text : List Char) : Option Binary64 :=
  let (negative, unsigned) := splitSign ((text.filter (· != '_')).map Char.toLower)
  let size :=
    if unsigned = ['.', 'i', 'n', 'f'] then some (Binary64.infinite false)
    else if unsigned = ['.', 'n', 'a', 'n'] then some Binary64.nan
    else if unsigned.contains ':' then
      sixtiesSum 1 (Binary64.zero false) (colonParts unsigned).reverse
    else readTrimmed unsigned
  size.map fun x => if negative then x.neg else x

/-- The truth value of a word. -/
def boolContent? (text : List Char) : Option Bool :=
  let word := String.ofList (text.map Char.toLower)
  if ["yes", "true", "on"].contains word then some true
  else if ["no", "false", "off"].contains word then some false
  else none

/-- The date or moment that a text denotes; a line feed at its end counts for nothing. -/
def timestampContent (text : List Char) : Except Fault Scalar :=
  let cs := if text.getLast? = some '\n' then text.dropLast else text
  match Timestamp.readWritten? cs with
  | none => .error .unreadableScalar
  | some written =>
    let denoted := match written.clock with
      | none => (Date.of? written.year written.month written.day).map Scalar.date
      | some clock => (written.moment? clock).map Scalar.timestamp
    match denoted with
    | some scalar => .ok scalar
    | none => .error .impossibleMoment

/-- The bytes that a text in base 64 denotes; only characters of ASCII may stand in it. -/
def bytesContent (text : List Char) : Except Fault Scalar :=
  match if text.all (·.toNat < 128) then Text.decodeBase64? text else none with
  | some bytes => .ok (.bytes bytes)
  | none => .error .malformed

/-- The scalar that a text denotes under a tag. -/
def scalarContent (tag : Tag) (text : String) : Except Fault Scalar :=
  let orUnreadable (scalar : Option Scalar) : Except Fault Scalar :=
    match scalar with
    | some scalar => .ok scalar
    | none => .error .unreadableScalar
  match tag with
  | .null => .ok .null
  | .bool => orUnreadable ((boolContent? text.toList).map .bool)
  | .int => orUnreadable ((intContent? text.toList).map .int)
  | .float => orUnreadable ((floatContent? text.toList).map .float)
  | .timestamp => timestampContent text.toList
  | .text => .ok (.text text)
  | .bytes => bytesContent text.toList
  | .inclusion => .ok (.included text)
  | .sequence | .pairs | .mapping | .set | .merge | .standIn | .unknown => .error .malformed

/-- The tag is one of a scalar. -/
def Tag.isScalar : Tag → Bool
  | .null | .bool | .int | .float | .timestamp | .text | .bytes | .inclusion => true
  | .sequence | .pairs | .mapping | .set | .merge | .standIn | .unknown => false

/-- The tag is one of a collection, whose members are read after it. -/
def Tag.isCollection : Tag → Bool
  | .sequence | .pairs | .mapping | .set => true
  | _ => false

/-- A value, and the faults in it with their depths. -/
structure Content where
  value : Value
  faults : List (Nat × Fault) := []

/-- What is denoted at a depth, or the fault there. -/
def Content.ofScalar (depth : Nat) : Except Fault Scalar → Content
  | .ok scalar => ⟨.scalar scalar, []⟩
  | .error fault => ⟨.null, [(depth, fault)]⟩

/-- The content with a fault. -/
def Content.broken (depth : Nat) (fault : Fault) : Content := ⟨.null, [(depth, fault)]⟩

/-- The key that a node denotes in a mapping whose members are at a depth; only scalars are keys,
and a key that stands for a value is taken as text. -/
def keyContent (depth : Nat) : Node → Scalar × List (Nat × Fault)
  | .scalar tag text =>
    match scalarContent (if tag = .standIn then .text else tag) text with
    | .ok scalar => (scalar, [])
    | .error fault => (.null, [(depth, fault)])
  | _ => (.null, [(depth, .malformed)])

/-- A value that does not fit its tag; that of a collection is found out when its members are
read. -/
def Content.misfit (depth : Nat) (tag : Tag) : Content :=
  .broken (if tag.isCollection then depth + 1 else depth) .malformed

/-- The value of a node at a depth, and the faults in it. -/
def contentOf (depth : Nat) : Node → Content
  | .scalar tag text =>
    if tag.isCollection then .misfit depth tag else .ofScalar depth (scalarContent tag text)
  | .sequence tag items =>
    match tag with
    | .sequence =>
      let contents := itemContents (depth + 1) items
      ⟨.list (contents.map (·.value)), contents.flatMap (·.faults)⟩
    | .pairs =>
      let contents := pairContents (depth + 1) items
      ⟨.list (contents.map (·.value)), contents.flatMap (·.faults)⟩
    | _ => .misfit depth tag
  | .mapping tag entries =>
    if tag = .mapping ∨ tag = .set then
      let unmerged := entries.any fun entry => entry.1.isMergeKey
      let contents := entryContents (depth + 1) entries
      let known := Entries.ofList (contents.map (·.1))
      ⟨if tag = .set then .ofMembers (known.map (·.1)) else .map known,
        (if unmerged then [(depth + 1, .malformed)] else []) ++ contents.flatMap (·.2)⟩
    else if tag.isScalar then
      match standIn entries with
      | some text =>
        .ofScalar depth
          (if tag = .timestamp then .error .unreadableScalar else scalarContent tag text)
      | none => .broken depth .malformed
    else .misfit depth tag
  | .enclosing isMapping => ⟨.scalar (.enclosing isMapping), []⟩
where
  /-- The values of the items of a sequence. -/
  itemContents (depth : Nat) : List Node → List Content
    | [] => []
    | item :: rest => contentOf depth item :: itemContents depth rest
  /-- The pairs that mappings of one entry each denote. -/
  pairContents (depth : Nat) : List Node → List Content
    | [] => []
    | .mapping _ [(key, value)] :: rest =>
      let first := contentOf depth key
      let second := contentOf depth value
      ⟨.pair first.value second.value, first.faults ++ second.faults⟩ :: pairContents depth rest
    | _ :: rest => .broken depth .malformed :: pairContents depth rest
  /-- The entries of a mapping. -/
  entryContents (depth : Nat) : List (Node × Node) → List ((Scalar × Value) × List (Nat × Fault))
    | [] => []
    | (key, value) :: rest =>
      let name := keyContent depth key
      let content := contentOf depth value
      ((name.1, content.value), name.2 ++ content.faults) :: entryContents depth rest
  /-- The text under the first key of a mapping that stands for a value. -/
  standIn : List (Node × Node) → Option String
    | [] => none
    | (key, value) :: rest => if key.tag = .standIn then standInText value else standIn rest
  /-- The text of a scalar, or of what stands in for it in a mapping. -/
  standInText : Node → Option String
    | .scalar _ text => some text
    | .sequence _ _ | .enclosing _ => none
    | .mapping _ entries => standIn entries

/-- Of faults with depths, the first of least depth. -/
def nearest : List (Nat × Fault) → Option (Nat × Fault)
  | [] => none
  | (depth, fault) :: rest =>
    match nearest rest with
    | some (other, found) => if other < depth then some (other, found) else some (depth, fault)
    | none => some (depth, fault)

/-- The value of a text; nothing where it holds no document. -/
def read (text : String) : Except Fault Value := do
  let cs := text.toList
  unless cs.all isAllowed do throw .malformed
  match ← document (tokens cs) with
  | none => pure .null
  | some root =>
    let content := contentOf 0 root.merged
    match nearest content.faults with
    | some (_, fault) => throw fault
    | none => pure content.value

end RamlInterfaces.Yaml
